import Mathlib.Data.List.Perm.Subperm
import Staging.Proofs.Json.Canonical
import Staging.Proofs.Schema.Statistics
import Staging.Stage.Pass

/-!
# Redaction shows nothing of what it hides

Two records may differ in the order of their members and, at the pointers that a policy hides, in
scalars of one kind (`Alike`). Redaction makes them the same record, so nothing that is done with
the redacted record can tell them apart: not its row, nor a warning about it, nor a count
(`redacted_records_load`). Pages that are the same but for such records are loaded alike
(`loadItems_alike`).

A redaction is a walk whose visits have no effects, so it is a function of the value alone
(`Policy.redacted`), with one equation for each kind of container.
-/

namespace Staging.Redaction

open Json Schema

variable {p : Policy} {pointer : String}

/-! ## Redacted values -/

/-- The value that `pointer` names, with what the policy hides replaced. -/
def Policy.redacted (p : Policy) (pointer : String) (v : Json) : Json :=
  Id.run (v.walk (fun pointer v => pure (p.redact pointer v)) pointer)

/-- A member of the value that `pointer` names, redacted. -/
def Policy.redactedMember (p : Policy) (pointer : String) (m : String × Json) : String × Json :=
  (m.1, p.redacted (stepDown pointer (memberToken m.1)) m.2)

/-- The items from number `n` on, redacted. -/
def Policy.redactedItems (p : Policy) (pointer : String) (n : Nat) (items : List Json) :
    List Json :=
  Id.run (walkItems (fun pointer v => pure (p.redact pointer v)) pointer n items)

theorem redacted_arr (items : List Json) :
    p.redacted pointer (.arr items) = .arr (p.redactedItems pointer 0 items) := rfl

theorem redactedItems_cons (n : Nat) (v : Json) (items : List Json) :
    p.redactedItems pointer n (v :: items)
      = p.redacted (stepDown pointer (itemToken n)) v :: p.redactedItems pointer (n + 1) items :=
  rfl

theorem redacted_obj (members : Members) :
    p.redacted pointer (.obj members) = .obj (members.map (p.redactedMember pointer)) := by
  have hmembers : Id.run (walkMembers (fun pointer v => pure (p.redact pointer v)) pointer members)
      = members.map (p.redactedMember pointer) := by
    induction members with
    | nil => rfl
    | cons m members ih =>
        rw [List.map_cons, ← ih]
        rfl
  exact congrArg Json.obj hmembers

/-- A scalar is visited unless it is null, and a visit would leave null as it is. -/
theorem redacted_scalar {v : Json} (hv : isNested v = false) :
    p.redacted pointer v = p.redact pointer v := by
  cases v with
  | null =>
      unfold Policy.redact
      split <;> rfl
  | arr items => cases hv
  | obj members => cases hv
  | _ => rfl

theorem canonical_scalar {v : Json} (hv : isNested v = false) : v.canonical = v := by
  cases v with
  | arr items => cases hv
  | obj members => cases hv
  | _ => rfl

/-- Members are put in order before they are redacted, but it might as well be done afterwards. -/
theorem redacted_canonical_obj (members : Members) :
    p.redacted pointer (Json.obj members).canonical
      = .obj
          (sortMembers (members.map fun m => p.redactedMember pointer (m.1, m.2.canonical))) := by
  have hname : ∀ m, (p.redactedMember pointer m).1 = m.1 := fun _ => rfl
  rw [canonical, redacted_obj, map_sortMembers hname, canonicalMembers_eq, List.map_map]
  rfl

theorem apply_some (p : Policy) (record : Json) :
    apply (some p) record = p.redacted "" record.canonical := rfl

/-! ## Values that differ in what is hidden -/

/-- Scalars of one kind; numbers are of one kind, whole or not. -/
inductive SameKind : Json → Json → Prop
  | null : SameKind .null .null
  | boolean (b c : Bool) : SameKind (.bool b) (.bool c)
  | number {v w : Json} (hv : isNumber v = true) (hw : isNumber w = true) :
    SameKind v w
  | string (s t : String) : SameKind (.str s) (.str t)

mutual

/-- Values of one structure, their members in any order. Scalars are the same, except that at
hidden pointers they need only be of one kind. -/
inductive Alike (hidden : String → Bool) : String → Json → Json → Prop
  | same (pointer : String) {v : Json} (hv : isNested v = false) : Alike hidden pointer v v
  | masked {pointer : String} {v w : Json} (hhidden : hidden pointer = true)
    (hkind : SameKind v w) : Alike hidden pointer v w
  | array {pointer : String} {items others : List Json}
    (h : AlikeItems hidden pointer 0 items others) : Alike hidden pointer (.arr items) (.arr others)
  | object {pointer : String} {members others : Members} (hnames : (members.map Prod.fst).Nodup)
    (hperm : (members.map Prod.fst).Perm (others.map Prod.fst))
    (h : AlikeMembers hidden pointer members others) :
    Alike hidden pointer (.obj members) (.obj others)

/-- Items from number `n` on, one by one. -/
inductive AlikeItems (hidden : String → Bool) : String → Nat → List Json → List Json → Prop
  | nil (pointer : String) (n : Nat) : AlikeItems hidden pointer n [] []
  | cons {pointer : String} {n : Nat} {v w : Json} {items others : List Json}
    (hv : Alike hidden (stepDown pointer (itemToken n)) v w)
    (hmore : AlikeItems hidden pointer (n + 1) items others) :
    AlikeItems hidden pointer n (v :: items) (w :: others)

/-- Every member has its counterpart under its name among the others. -/
inductive AlikeMembers (hidden : String → Bool) : String → Members → Members → Prop
  | nil (pointer : String) (others : Members) : AlikeMembers hidden pointer [] others
  | cons {pointer name : String} {v w : Json} {members others : Members}
    (hw : (name, w) ∈ others) (hv : Alike hidden (stepDown pointer (memberToken name)) v w)
    (hmore : AlikeMembers hidden pointer members others) :
    AlikeMembers hidden pointer ((name, v) :: members) others

end

theorem neutral_number {v : Json} (hv : isNumber v = true) : neutral v = .int 0 := by
  cases v with
  | int n => rfl
  | float x => rfl
  | _ => cases hv

theorem scalar_number {v : Json} (hv : isNumber v = true) : isNested v = false := by
  cases v with
  | int n => rfl
  | float x => rfl
  | _ => cases hv

theorem neutral_sameKind {v w : Json} (h : SameKind v w) : neutral v = neutral w := by
  cases h with
  | number hv hw => rw [neutral_number hv, neutral_number hw]
  | _ => rfl

theorem scalar_sameKind {v w : Json} (h : SameKind v w) :
    isNested v = false ∧ isNested w = false := by
  cases h with
  | number hv hw => exact ⟨scalar_number hv, scalar_number hw⟩
  | _ => exact ⟨rfl, rfl⟩

/-! ## Redaction makes them the same -/

/-- Members that all occur among as many others, and do not repeat a name, are those others. -/
theorem perm_of_subset {l l' : Members} (hnames : (l.map Prod.fst).Nodup)
    (hperm : (l.map Prod.fst).Perm (l'.map Prod.fst)) (hsub : l ⊆ l') : l.Perm l' := by
  have hlength : l'.length ≤ l.length := by
    have hnamesLength := hperm.length_eq
    rw [List.length_map, List.length_map] at hnamesLength
    omega
  have hnodup : l.Nodup := hnames.of_map Prod.fst
  have hsubperm : l.Subperm l' := hnodup.subperm hsub
  exact hsubperm.perm_of_length_le hlength

mutual

theorem Alike.redacted_eq : ∀ {pointer : String} {v w : Json}, Alike p.classifier pointer v w →
    p.redacted pointer v.canonical = p.redacted pointer w.canonical
  | _, _, _, .same _ _ => rfl
  | pointer, v, w, .masked hhidden hkind => by
    obtain ⟨hv, hw⟩ := scalar_sameKind hkind
    rw [canonical_scalar hv, canonical_scalar hw, redacted_scalar hv, redacted_scalar hw]
    unfold Policy.redact
    rw [if_pos hhidden, if_pos hhidden, neutral_sameKind hkind]
  | pointer, .arr items, .arr others, .array h => by
    rw [canonical, canonical, redacted_arr, redacted_arr, h.redacted_eq]
  | pointer, .obj members, .obj others, .object hnames hperm h => by
    have hnamesEq : ∀ l : Members,
        (l.map fun m => p.redactedMember pointer (m.1, m.2.canonical)).map Prod.fst
          = l.map Prod.fst := by
      intro l
      rw [List.map_map]
      rfl
    have hredacted := perm_of_subset (by rwa [hnamesEq]) (by rwa [hnamesEq, hnamesEq])
      h.redacted_subset
    rw [redacted_canonical_obj, redacted_canonical_obj,
      sortMembers_eq_of_perm hredacted (by rwa [hnamesEq])]

theorem AlikeItems.redacted_eq : ∀ {pointer : String} {n : Nat} {items others : List Json},
    AlikeItems p.classifier pointer n items others →
    p.redactedItems pointer n (canonicalItems items)
      = p.redactedItems pointer n (canonicalItems others)
  | _, _, _, _, .nil _ _ => rfl
  | _, _, _, _, .cons hv hmore => by
    rw [canonicalItems, canonicalItems, redactedItems_cons, redactedItems_cons, hv.redacted_eq,
      hmore.redacted_eq]

theorem AlikeMembers.redacted_subset : ∀ {pointer : String} {members others : Members},
    AlikeMembers p.classifier pointer members others →
    (members.map fun m => p.redactedMember pointer (m.1, m.2.canonical))
      ⊆ others.map fun m => p.redactedMember pointer (m.1, m.2.canonical)
  | _, _, _, .nil _ _ => List.nil_subset _
  | _, _, _, .cons hw hv hmore => by
    intro m hm
    rcases List.mem_cons.mp hm with rfl | hm
    · exact List.mem_map.mpr ⟨_, hw, Prod.ext rfl hv.redacted_eq.symm⟩
    · exact hmore.redacted_subset hm

end

/-! ## The load pass -/

variable {r r' : Json} {stager : Stage.Stager} {t : Table}

theorem apply_alike (hactive : stager.policy.isActive t.name = true)
    (h : Alike stager.policy.classifier "" r r') :
    apply (stager.policy.forTable t.name) r = apply (stager.policy.forTable t.name) r' := by
  have hpolicy : stager.policy.forTable t.name = some stager.policy := if_pos hactive
  rw [hpolicy, apply_some, apply_some, h.redacted_eq]

/-- Items of two pages, the same except that their records need only be alike. -/
inductive AlikeItem (hidden : String → Bool) : Page.Item Json → Page.Item Json → Prop
  | arrayStart : AlikeItem hidden .arrayStart .arrayStart
  | record {r r' : Json} (h : Alike hidden "" r r') : AlikeItem hidden (.record r) (.record r')
  | arrayEnd : AlikeItem hidden .arrayEnd .arrayEnd

theorem row_alike (hactive : stager.policy.isActive t.name = true)
    (h : Alike stager.policy.classifier "" r r') : stager.row t r = stager.row t r' := by
  unfold Stage.Stager.row
  rw [apply_alike hactive h]

theorem loadItem_alike (hactive : stager.policy.isActive t.name = true)
    {item item' : Page.Item Json} (h : AlikeItem stager.policy.classifier item item')
    (state : Sql.Batch × Nat) : stager.loadItem t state item = stager.loadItem t state item' := by
  cases h with
  | record h =>
      unfold Stage.Stager.loadItem
      simp only [row_alike hactive h]
  | _ => rfl

/-- Pages whose records are alike are loaded alike. -/
theorem loadItems_alike (hactive : stager.policy.isActive t.name = true)
    {items items' : List (Page.Item Json)}
    (h : List.Forall₂ (AlikeItem stager.policy.classifier) items items')
    (state : Sql.Batch × Nat) :
    items.foldlM (stager.loadItem t) state = items'.foldlM (stager.loadItem t) state := by
  induction h generalizing state with
  | nil => rfl
  | cons hitem _ ih =>
      rw [List.foldlM_cons, List.foldlM_cons, loadItem_alike hactive hitem]
      simp only [ih]

/-- Records that differ at most in what an active policy hides are processed into one record, and
their rows are encoded alike whatever the columns are and from any session: with the same outcome
and with the same warnings and counts in the journal. -/
theorem redacted_records_load (stager : Stage.Stager) (t : Table)
    (hactive : stager.policy.isActive t.name = true)
    (h : Alike stager.policy.classifier "" r r') :
    apply (stager.policy.forTable t.name) r = apply (stager.policy.forTable t.name) r' ∧
    (∀ p, (stager.row t r).run p = (stager.row t r').run p) ∧
    ∀ (e : Sql.Encoder) (s : Session Unit),
      (e.encodeRow (apply (stager.policy.forTable t.name) r)).run s
        = (e.encodeRow (apply (stager.policy.forTable t.name) r')).run s := by
  have hsame := apply_alike hactive h
  refine ⟨hsame, ?_, ?_⟩
  · intro p
    rw [row_alike hactive h]
  · intro e s
    rw [hsame]

/-- Two users who have in common what is not personal, and the kinds of what is. -/
def firstUser : Json :=
  .obj [("id", .str "u1"), ("username", .str "jdoe"), ("active", .bool true),
    ("personal", .obj [("age", .int 41), ("names", .arr [.str "Jane", .null])])]

def secondUser : Json :=
  .obj [("personal", .obj [("names", .arr [.str "", .null]), ("age", .float .zero)]),
    ("active", .bool true), ("id", .str "u1"), ("username", .str "x\x27,(")]

def userTable : Table where
  name := "users"
  sourcePath := "/users"
  moduleName := "mod-users"
  columns := [⟨"id", "id", .id⟩, ⟨"active", "active", .boolean⟩, ⟨"username", "username", .varchar⟩]

def userStager : Stage.Stager where
  files := fun _ => .missing
  executor := ⟨"postgresql", false, none⟩
  loadDir := "/d"
  dialect := .postgres
  settings := {}
  policy := { tables := ["users"] }

theorem users_alike : Alike isPersonal "" firstUser secondUser := by
  have hname : isPersonal "/username" = true := by decide +kernel
  have hage : isPersonal "/personal/age" = true := by decide +kernel
  have hfirst : isPersonal "/personal/names/0" = true := by decide +kernel
  have hnames : AlikeItems isPersonal "/personal/names" 0 [.str "Jane", .null] [.str "", .null] :=
    .cons (.masked hfirst (.string _ _)) (.cons (.same _ rfl) (.nil _ _))
  have hpersonal : Alike isPersonal "/personal"
      (.obj [("age", .int 41), ("names", .arr [.str "Jane", .null])])
      (.obj [("names", .arr [.str "", .null]), ("age", .float .zero)]) :=
    .object (by decide) (by decide)
      (.cons (.tail _ (.head _)) (.masked hage (.number rfl rfl))
        (.cons (.head _) (.array hnames) (.nil _ _)))
  exact .object (by decide) (by decide)
    (.cons (.tail _ (.tail _ (.head _))) (.same _ rfl)
      (.cons (.tail _ (.tail _ (.tail _ (.head _)))) (.masked hname (.string _ _))
        (.cons (.tail _ (.head _)) (.same _ rfl)
          (.cons (.head _) hpersonal (.nil _ _)))))

theorem users_load :
    apply (some userStager.policy) firstUser = apply (some userStager.policy) secondUser ∧
    ∀ p, (userStager.row userTable firstUser).run p
      = (userStager.row userTable secondUser).run p :=
  have hactive : userStager.policy.isActive userTable.name = true := by decide +kernel
  have ⟨happly, hrow, _⟩ := redacted_records_load userStager userTable hactive users_alike
  ⟨happly, hrow⟩

end Staging.Redaction
