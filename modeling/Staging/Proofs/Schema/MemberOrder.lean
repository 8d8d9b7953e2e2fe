import Mathlib.Data.List.Perm.Basic
import Staging.Proofs.Schema.Arrival

/-!
# One form for every order of members

Values whose objects repeat no name have the same canonical form exactly if they differ in the order
of members alone (`canonical_eq_iff`). The canonical form is itself one of the orders that a value
can be written in, and the only one among them with every object in order
(`eq_canonical_of_ordered`).
-/

namespace Staging.Json

open Schema (Rearranged)

variable {P : List String → Prop}

/-! ## The names of every object -/

mutual

/-- Whether the names of every object in the value, at any depth and as they stand, are as said. -/
def EachObject (P : List String → Prop) : Json → Prop
  | .arr items => EachItem P items
  | .obj members => P (members.map Prod.fst) ∧ EachMember P members
  | _ => True

def EachItem (P : List String → Prop) : List Json → Prop
  | [] => True
  | v :: items => EachObject P v ∧ EachItem P items

def EachMember (P : List String → Prop) : List (String × Json) → Prop
  | [] => True
  | (_, v) :: members => EachObject P v ∧ EachMember P members

end

/-- No object repeats a name. -/
def Unrepeated : Json → Prop :=
  EachObject List.Nodup

/-- The name that identifies a record first, if it is there, and the others strictly ascending. -/
def NamesOrdered (names : List String) : Prop :=
  ∃ others, (names = others ∨ names = idField :: others) ∧ idField ∉ others ∧
    others.Pairwise (· < ·)

/-- Every object has its members in order. -/
def Ordered : Json → Prop :=
  EachObject NamesOrdered

theorem eachItem_iff {items : List Json} : EachItem P items ↔ ∀ v ∈ items, v.EachObject P := by
  induction items with
  | nil => simp [EachItem]
  | cons v items ih => rw [EachItem, ih, List.forall_mem_cons]

theorem eachMember_iff {members : Members} :
    EachMember P members ↔ ∀ m ∈ members, m.2.EachObject P := by
  induction members with
  | nil => simp [EachMember]
  | cons m members ih => rw [EachMember, ih, List.forall_mem_cons]

theorem eachMember_perm {members others : Members} (h : members.Perm others) :
    EachMember P members ↔ EachMember P others := by
  rw [eachMember_iff, eachMember_iff]
  simp only [h.mem_iff]

mutual

theorem EachObject.imp {Q : List String → Prop} (hPQ : ∀ names, P names → Q names) :
    ∀ v : Json, v.EachObject P → v.EachObject Q
  | .null, _ | .bool _, _ | .int _, _ | .float _, _ | .str _, _ => trivial
  | .arr items, h => EachItem.imp hPQ items h
  | .obj members, ⟨hnames, h⟩ => ⟨hPQ _ hnames, EachMember.imp hPQ members h⟩

theorem EachItem.imp {Q : List String → Prop} (hPQ : ∀ names, P names → Q names) :
    ∀ items : List Json, EachItem P items → EachItem Q items
  | [], _ => trivial
  | v :: items, ⟨hv, h⟩ => ⟨EachObject.imp hPQ v hv, EachItem.imp hPQ items h⟩

theorem EachMember.imp {Q : List String → Prop} (hPQ : ∀ names, P names → Q names) :
    ∀ members : List (String × Json), EachMember P members → EachMember Q members
  | [], _ => trivial
  | (_, v) :: members, ⟨hv, h⟩ => ⟨EachObject.imp hPQ v hv, EachMember.imp hPQ members h⟩

end

/-! ## Names in order -/

theorem lt_of_nameLe {a b : String} (ha : a ≠ idField) (hb : b ≠ idField) (hne : a ≠ b)
    (h : nameLe a b = true) : a < b := by
  rw [nameLe, if_neg ha, if_neg hb, decide_eq_true_eq] at h
  exact String.not_le.mp fun hba => hne (String.le_antisymm h hba)

/-- Only the name itself stands before the name that identifies a record. -/
theorem eq_of_nameLe_idField {a : String} (h : nameLe a idField = true) : a = idField := by
  by_contra ha
  rw [nameLe, if_neg ha, if_pos rfl] at h
  cases h

theorem ascending_of_pairwise {names : List String} (hid : idField ∉ names) (hnodup : names.Nodup)
    (h : names.Pairwise fun a b => nameLe a b = true) : names.Pairwise (· < ·) := by
  have hne : ∀ {a}, a ∈ names → a ≠ idField := fun ha heq => hid (heq ▸ ha)
  refine (h.and hnodup).imp_of_mem ?_
  rintro a b ha hb ⟨hab, hdistinct⟩
  exact lt_of_nameLe (hne ha) (hne hb) hdistinct hab

/-- Names that do not repeat, each allowed before those behind it, are in order. -/
theorem namesOrdered_of_pairwise {names : List String} (hnodup : names.Nodup)
    (h : names.Pairwise fun a b => nameLe a b = true) : NamesOrdered names := by
  by_cases hid : idField ∈ names
  · cases names with
    | nil => exact absurd hid List.not_mem_nil
    | cons name others =>
        have hfirst : name = idField := by
          rcases List.mem_cons.mp hid with heq | hin
          · exact heq.symm
          · exact eq_of_nameLe_idField (List.rel_of_pairwise_cons h hin)
        subst hfirst
        rw [List.nodup_cons] at hnodup
        exact ⟨others, .inr rfl, hnodup.1, ascending_of_pairwise hnodup.1 hnodup.2 h.of_cons⟩
  · exact ⟨names, .inl rfl, hid, ascending_of_pairwise hid hnodup h⟩

theorem nodup_of_namesOrdered {names : List String} (h : NamesOrdered names) : names.Nodup := by
  obtain ⟨others, rfl | rfl, hid, hothers⟩ := h
  · exact hothers.imp String.ne_of_lt
  · exact List.nodup_cons.mpr ⟨hid, hothers.imp String.ne_of_lt⟩

theorem pairwise_of_namesOrdered {names : List String} (h : NamesOrdered names) :
    names.Pairwise fun a b => nameLe a b = true := by
  obtain ⟨others, hnames, hid, hothers⟩ := h
  have hne : ∀ {a}, a ∈ others → a ≠ idField := fun ha heq => hid (heq ▸ ha)
  have hascending : others.Pairwise fun a b => nameLe a b = true := by
    refine hothers.imp_of_mem fun ha hb hlt => ?_
    rw [nameLe, if_neg (hne ha), if_neg (hne hb), decide_eq_true_eq]
    exact String.not_lt.mp (String.lt_asymm hlt)
  rcases hnames with rfl | rfl
  · exact hascending
  · refine List.pairwise_cons.mpr ⟨fun b _ => ?_, hascending⟩
    rw [nameLe, if_pos rfl]

/-! ## The canonical form is settled -/

theorem sortMembers_sortMembers {α : Type} (members : List (String × α)) :
    sortMembers (sortMembers members) = sortMembers members :=
  List.mergeSort_of_pairwise (sortMembers_pairwise members)

mutual

theorem canonical_canonical : ∀ v : Json, v.canonical.canonical = v.canonical
  | .null | .bool _ | .int _ | .float _ | .str _ => rfl
  | .arr items => by
    rw [canonical, canonical, canonicalItems_canonicalItems]
  | .obj members => by
    have hvalues := canonicalMembers_canonicalMembers members
    have hsorted := map_sortMembers (f := fun m => (m.1, m.2.canonical)) (fun _ => rfl)
      (canonicalMembers members)
    rw [← canonicalMembers_eq, ← canonicalMembers_eq, hvalues] at hsorted
    rw [canonical, canonical, hsorted, sortMembers_sortMembers]

theorem canonicalItems_canonicalItems : ∀ items : List Json,
    canonicalItems (canonicalItems items) = canonicalItems items
  | [] => rfl
  | v :: items => by
    rw [canonicalItems, canonicalItems, canonical_canonical v, canonicalItems_canonicalItems items]

theorem canonicalMembers_canonicalMembers : ∀ members : List (String × Json),
    canonicalMembers (canonicalMembers members) = canonicalMembers members
  | [] => rfl
  | (name, v) :: members => by
    rw [canonicalMembers, canonicalMembers, canonical_canonical v,
      canonicalMembers_canonicalMembers members]

end

theorem names_sorted (members : Members) :
    ((sortMembers (canonicalMembers members)).map Prod.fst).Perm (members.map Prod.fst) := by
  rw [← names_canonicalMembers members]
  exact (sortMembers_perm _).map _

mutual

theorem ordered_canonical : ∀ v : Json, v.Unrepeated → v.canonical.Ordered
  | .null, _ | .bool _, _ | .int _, _ | .float _, _ | .str _, _ => trivial
  | .arr items, h => ordered_canonicalItems items h
  | .obj members, ⟨hnodup, h⟩ => by
    refine ⟨namesOrdered_of_pairwise ?_ ?_, ?_⟩
    · exact (names_sorted members).nodup_iff.mpr hnodup
    · exact List.pairwise_map.mpr (sortMembers_pairwise _)
    · exact (eachMember_perm (sortMembers_perm _)).mpr (ordered_canonicalMembers members h)

theorem ordered_canonicalItems : ∀ items : List Json, EachItem List.Nodup items →
    EachItem NamesOrdered (canonicalItems items)
  | [], _ => trivial
  | v :: items, ⟨hv, h⟩ => ⟨ordered_canonical v hv, ordered_canonicalItems items h⟩

theorem ordered_canonicalMembers : ∀ members : List (String × Json),
    EachMember List.Nodup members → EachMember NamesOrdered (canonicalMembers members)
  | [], _ => trivial
  | (_, v) :: members, ⟨hv, h⟩ => ⟨ordered_canonical v hv, ordered_canonicalMembers members h⟩

end

mutual

theorem canonical_of_ordered : ∀ v : Json, v.Ordered → v.canonical = v
  | .null, _ | .bool _, _ | .int _, _ | .float _, _ | .str _, _ => rfl
  | .arr items, h => congrArg Json.arr (canonicalItems_of_ordered items h)
  | .obj members, ⟨hnames, h⟩ => by
    have hsorted := List.pairwise_map.mp (pairwise_of_namesOrdered hnames)
    rw [canonical, canonicalMembers_of_ordered members h, sortMembers,
      List.mergeSort_of_pairwise hsorted]

theorem canonicalItems_of_ordered : ∀ items : List Json, EachItem NamesOrdered items →
    canonicalItems items = items
  | [], _ => rfl
  | v :: items, ⟨hv, h⟩ => by
    rw [canonicalItems, canonical_of_ordered v hv, canonicalItems_of_ordered items h]

theorem canonicalMembers_of_ordered : ∀ members : List (String × Json),
    EachMember NamesOrdered members → canonicalMembers members = members
  | [], _ => rfl
  | (name, v) :: members, ⟨hv, h⟩ => by
    rw [canonicalMembers, canonical_of_ordered v hv, canonicalMembers_of_ordered members h]

end

/-! ## Rearranged values have one canonical form -/

mutual

theorem canonical_eq_of_rearranged : ∀ {v w : Json}, v.Unrepeated → Rearranged v w →
    v.canonical = w.canonical
  | _, _, _, .same _ => rfl
  | .arr _, .arr _, h, .array hitems => congrArg Json.arr (canonicalItems_eq_of_rearranged h hitems)
  | .obj members, .obj others, ⟨hnodup, h⟩, .object hnames hvalues hperm => by
    have hmiddle := canonicalMembers_eq_of_rearranged h hnames hvalues
    rw [← names_canonicalMembers, hmiddle] at hnodup
    have hothers := hperm.map fun m => (m.1, m.2.canonical)
    rw [← canonicalMembers_eq, ← canonicalMembers_eq] at hothers
    rw [canonical, canonical, hmiddle, sortMembers_eq_of_perm hothers hnodup]

theorem canonicalItems_eq_of_rearranged : ∀ {items others : List Json},
    EachItem List.Nodup items → List.Forall₂ Rearranged items others →
      canonicalItems items = canonicalItems others
  | [], [], _, .nil => rfl
  | _ :: _, _ :: _, ⟨hv, h⟩, .cons hvw hitems => by
    rw [canonicalItems, canonicalItems, canonical_eq_of_rearranged hv hvw,
      canonicalItems_eq_of_rearranged h hitems]

theorem canonicalMembers_eq_of_rearranged : ∀ {members others : List (String × Json)},
    EachMember List.Nodup members → members.map Prod.fst = others.map Prod.fst →
      List.Forall₂ Rearranged (members.map Prod.snd) (others.map Prod.snd) →
        canonicalMembers members = canonicalMembers others
  | [], [], _, _, _ => rfl
  | (name, _) :: _, (name', _) :: _, ⟨hv, h⟩, hnames, .cons hvw hvalues => by
    have hname : name = name' := (List.cons.inj hnames).1
    have hnames := (List.cons.inj hnames).2
    rw [canonicalMembers, canonicalMembers, hname, canonical_eq_of_rearranged hv hvw,
      canonicalMembers_eq_of_rearranged h hnames hvalues]

end

/-! ## One canonical form belongs to rearranged values -/

/-- Members that come out in one canonical order were the same members before, in another order. -/
theorem exists_middle {members others : Members}
    (h : sortMembers (canonicalMembers members) = sortMembers (canonicalMembers others)) :
    ∃ middle : Members, canonicalMembers members = canonicalMembers middle ∧
      middle.Perm others := by
  have hperm : (canonicalMembers members).Perm (canonicalMembers others) :=
    (sortMembers_perm _).symm.trans (h ▸ sortMembers_perm _)
  have hothers : List.Forall₂ (fun m m' => m = (m'.1, m'.2.canonical)) (canonicalMembers others)
      others := by
    rw [canonicalMembers_eq, List.forall₂_map_left_iff]
    exact List.forall₂_same.mpr fun _ _ => rfl
  obtain ⟨middle, hmiddle, hperm'⟩ := List.perm_comp_forall₂ hperm hothers
  refine ⟨middle, ?_, hperm'⟩
  rw [canonicalMembers_eq middle]
  exact List.forall₂_eq_eq_eq ▸ List.forall₂_map_right_iff.mpr hmiddle

mutual

theorem rearranged_of_canonical_eq : ∀ v w : Json, v.canonical = w.canonical → Rearranged v w
  | .arr items, .arr others, h => .array (rearranged_of_canonicalItems_eq items others (arr.inj h))
  | .obj members, .obj others, h => by
    obtain ⟨middle, hmiddle, hperm⟩ := exists_middle (obj.inj h)
    obtain ⟨hnames, hvalues⟩ := rearranged_of_canonicalMembers_eq members middle hmiddle
    exact .object hnames hvalues hperm
  | .null, w, h | .bool _, w, h | .int _, w, h | .float _, w, h | .str _, w, h => by
    cases w <;> cases h; exact .same _

theorem rearranged_of_canonicalItems_eq : ∀ items others : List Json,
    canonicalItems items = canonicalItems others → List.Forall₂ Rearranged items others
  | [], [], _ => .nil
  | v :: items, w :: others, h => by
    obtain ⟨hv, hitems⟩ := List.cons.inj h
    exact .cons (rearranged_of_canonical_eq v w hv)
      (rearranged_of_canonicalItems_eq items others hitems)

theorem rearranged_of_canonicalMembers_eq : ∀ members others : List (String × Json),
    canonicalMembers members = canonicalMembers others →
      members.map Prod.fst = others.map Prod.fst ∧
        List.Forall₂ Rearranged (members.map Prod.snd) (others.map Prod.snd)
  | [], [], _ => ⟨rfl, .nil⟩
  | (name, v) :: members, (name', w) :: others, h => by
    obtain ⟨hm, hmembers⟩ := List.cons.inj h
    obtain ⟨rfl, hv⟩ := Prod.mk.inj hm
    obtain ⟨hnames, hvalues⟩ := rearranged_of_canonicalMembers_eq members others hmembers
    exact ⟨congrArg (name :: ·) hnames, .cons (rearranged_of_canonical_eq v w hv) hvalues⟩

end

/-! ## Canonical form says which values are the same -/

/-- There is one way to write a value with every object in order. -/
theorem eq_canonical_of_ordered {v w : Json} (hw : w.Ordered) (h : Rearranged w v) :
    w = v.canonical := by
  have hunrepeated : w.Unrepeated := EachObject.imp (fun _ => nodup_of_namesOrdered) w hw
  rw [← canonical_eq_of_rearranged hunrepeated h, canonical_of_ordered w hw]

/-- Canonical form tells values apart by everything but the order of members, and is itself one of
the orders that a value can be written in, with every object in order. -/
theorem canonical_eq_iff {v w : Json} (hv : v.Unrepeated) :
    (v.canonical = w.canonical ↔ Rearranged v w) ∧ Rearranged v.canonical v ∧
      v.canonical.Ordered ∧ v.canonical.canonical = v.canonical := by
  refine ⟨⟨?_, ?_⟩, ?_, ?_, ?_⟩
  · exact rearranged_of_canonical_eq v w
  · exact canonical_eq_of_rearranged hv
  · exact rearranged_of_canonical_eq _ _ (canonical_canonical v)
  · exact ordered_canonical v hv
  · exact canonical_canonical v

/-- A line of an order, and an order of one line. -/
def shopLine : Json :=
  .obj [("sku", .str "a"), ("id", .int 1)]

def shopOrder : Json :=
  .obj [("lines", .arr [shopLine]), ("id", .int 7)]

/-- The same line and the same order, the members of both turned round. -/
def turnedLine : Json :=
  .obj [("id", .int 1), ("sku", .str "a")]

def turnedOrder : Json :=
  .obj [("id", .int 7), ("lines", .arr [turnedLine])]

theorem canonical_shopOrder :
    shopOrder.Unrepeated ∧ shopOrder.canonical = turnedOrder.canonical := by
  have hv : shopOrder.Unrepeated := by
    simp [shopOrder, shopLine, Unrepeated, EachObject, EachItem, EachMember]
  have hline : Rearranged shopLine turnedLine := by
    refine .object rfl ?_ (.swap _ _ _)
    exact .cons (.same _) (.cons (.same _) .nil)
  have hturn : ([("lines", arr [turnedLine]), ("id", int 7)] : Members).Perm
      [("id", int 7), ("lines", arr [turnedLine])] := .swap _ _ _
  have horder : Rearranged shopOrder turnedOrder := by
    refine .object ?_ ?_ hturn
    · rfl
    · exact .cons (.array (.cons hline .nil)) (.cons (.same _) .nil)
  exact ⟨hv, (canonical_eq_iff hv).1.mpr horder⟩

end Staging.Json
