import Mathlib.Data.List.Nodup
import Staging.Json.Order

/-!
# Members in canonical order

Canonical order moves members about and leaves what they are named. Where no name repeats there is
one canonical order, however the members stood before (`sortMembers_eq_of_perm`), and a member is
found in the canonical form of an object just where it was found before, with its value in canonical
form (`member?_canonical`).
-/

namespace Staging

namespace Members

variable {α : Type} {name : String} {a : α} {l l' : List (String × α)}

theorem mem_of_lookup (h : l.lookup name = some a) : (name, a) ∈ l := by
  induction l with
  | nil => cases h
  | cons p l ih =>
      rw [List.lookup_cons] at h
      split at h
      · rename_i heq
        obtain rfl := Option.some.inj h
        exact beq_iff_eq.mp heq ▸ List.mem_cons_self
      · exact List.mem_cons_of_mem p (ih h)

theorem not_mem_of_lookup_eq_none (h : l.lookup name = none) : name ∉ l.map Prod.fst := by
  intro hmem
  obtain ⟨p, hp, rfl⟩ := List.mem_map.mp hmem
  simpa using List.lookup_eq_none_iff.mp h p hp

theorem lookup_eq_some_iff (hl : (l.map Prod.fst).Nodup) :
    l.lookup name = some a ↔ (name, a) ∈ l := by
  refine ⟨mem_of_lookup, fun h => ?_⟩
  induction l with
  | nil => exact absurd h List.not_mem_nil
  | cons p l ih =>
      rw [List.map_cons, List.nodup_cons] at hl
      rw [List.lookup_cons]
      rcases List.mem_cons.mp h with rfl | h
      · rw [beq_self_eq_true]
      · have hne : name ≠ p.1 := fun heq => hl.1 (heq ▸ List.mem_map_of_mem h)
        rw [beq_eq_false_iff_ne.mpr hne]
        exact ih hl.2 h

/-- The order of members that do not repeat a name makes no difference to what is found. -/
theorem lookup_perm (h : l.Perm l') (hl : (l.map Prod.fst).Nodup) :
    l.lookup name = l'.lookup name := by
  have hl' : (l'.map Prod.fst).Nodup := (h.map Prod.fst).nodup_iff.mp hl
  refine Option.ext fun a => ?_
  rw [lookup_eq_some_iff hl, lookup_eq_some_iff hl', h.mem_iff]

/-- What is done to the values under their names is done to what is found. -/
theorem lookup_map {β : Type} (f : String → α → β) (l : List (String × α)) (name : String) :
    (l.map fun m => (m.1, f m.1 m.2)).lookup name = (l.lookup name).map (f name) := by
  induction l with
  | nil => rfl
  | cons m l ih =>
      rw [List.map_cons, List.lookup_cons, List.lookup_cons, ih]
      cases heq : name == m.1 with
      | true => rw [beq_iff_eq.mp heq]; rfl
      | false => rfl

end Members

namespace Json

variable {name : String} {members : Members}

theorem sortMembers_perm {α : Type} (members : List (String × α)) :
    (sortMembers members).Perm members := List.mergeSort_perm _ _

/-! ## The order of names -/

theorem nameLe_total (a b : String) : (nameLe a b || nameLe b a) = true := by
  unfold nameLe
  by_cases ha : a = idField <;> by_cases hb : b = idField <;> simp [ha, hb, String.le_total]

theorem nameLe_trans {a b c : String} (hab : nameLe a b = true) (hbc : nameLe b c = true) :
    nameLe a c = true := by
  unfold nameLe at *
  by_cases ha : a = idField
  · simp [ha]
  · by_cases hb : b = idField
    · simp [ha, hb] at hab
    · by_cases hc : c = idField
      · simp [hb, hc] at hbc
      · simp only [ha, hb, hc, if_false, decide_eq_true_eq] at *
        exact String.le_trans hab hbc

theorem nameLe_antisymm {a b : String} (hab : nameLe a b = true) (hba : nameLe b a = true) :
    a = b := by
  unfold nameLe at *
  by_cases ha : a = idField <;> by_cases hb : b = idField
  · rw [ha, hb]
  · simp [ha, hb] at hba
  · simp [ha, hb] at hab
  · simp only [ha, hb, if_false, decide_eq_true_eq] at *
    exact String.le_antisymm hab hba

section

variable {α β : Type}

theorem sortMembers_pairwise (members : List (String × α)) :
    (sortMembers members).Pairwise fun a b => nameLe a.1 b.1 = true := by
  refine List.pairwise_mergeSort ?_ ?_ members
  · intro a b c
    exact nameLe_trans
  · intro a b
    exact nameLe_total a.1 b.1

/-- Members that do not repeat a name have one canonical order. -/
theorem sortMembers_eq_of_perm {l l' : List (String × α)} (h : l.Perm l')
    (hl : (l.map Prod.fst).Nodup) : sortMembers l = sortMembers l' := by
  have hperm := (sortMembers_perm l).trans (h.trans (sortMembers_perm l').symm)
  refine hperm.eq_of_pairwise ?_ (sortMembers_pairwise l) (sortMembers_pairwise l')
  intro a b ha hb hab hba
  have ha := (sortMembers_perm l).mem_iff.mp ha
  have hb := h.mem_iff.mpr ((sortMembers_perm l').mem_iff.mp hb)
  exact List.inj_on_of_nodup_map hl ha hb (nameLe_antisymm hab hba)

theorem map_sortMembers {f : String × α → String × β} (hf : ∀ m, (f m).1 = m.1)
    (members : List (String × α)) :
    (sortMembers members).map f = sortMembers (members.map f) := by
  unfold sortMembers
  exact List.map_mergeSort fun a _ b _ => by simp only [hf]

end

/-! ## Canonical members -/

theorem canonicalMembers_eq (members : Members) :
    canonicalMembers members = members.map fun m => (m.1, m.2.canonical) := by
  induction members with
  | nil => rfl
  | cons m members ih => rw [canonicalMembers, ih, List.map_cons]

theorem names_canonicalMembers (members : Members) :
    (canonicalMembers members).map Prod.fst = members.map Prod.fst := by
  rw [canonicalMembers_eq, List.map_map]
  rfl

theorem lookup_canonicalMembers (members : Members) (name : String) :
    (canonicalMembers members).lookup name = (members.lookup name).map canonical := by
  rw [canonicalMembers_eq]
  exact Members.lookup_map (fun _ v => v.canonical) members name

/-- A member of the canonical form is the canonical form of the member. -/
theorem member?_canonical (h : (members.map Prod.fst).Nodup) (name : String) :
    (canonical (.obj members)).member? name = (Members.get? members name).map canonical := by
  have hsorted := (sortMembers_perm (canonicalMembers members)).symm
  rw [← names_canonicalMembers] at h
  rw [canonical, member?, Members.get?, Members.get?, ← Members.lookup_perm hsorted h,
    lookup_canonicalMembers]

end Json

end Staging
