import Staging.Proofs.Redaction
import Staging.Proofs.Redaction.Visits

/-!
# What the default policy hides

A classifier sees no more of a place than the text of its pointer. As names are escaped there, a
text leads to another's place or below it just if its way down goes on from the other's
(`isAtOrBelow_pointerBelow`). So the default policy hides the scalars in four members of a record,
whatever the names further down, and no others (`redacts_personal_members`).
-/

namespace Staging.Redaction

open Json Schema

variable {p : Policy} {pointer : String} {path : List String} {v s : Json}

/-! ## Personal members -/

/-- The test on texts decides whether one way down goes on from the other. -/
theorem isAtOrBelow_pointerBelow (above path : List String) :
    isAtOrBelow (pointerBelow "" above) (pointerBelow "" path) = true ↔ above <+: path := by
  rw [isAtOrBelow, Bool.or_eq_true, beq_iff_eq, List.isPrefixOf_iff_prefix, String.toList_append,
    toList_pointer, toList_pointer]
  constructor
  · rintro (heq | ⟨text, htext⟩)
    · exact pointerBelow_injective heq ▸ List.prefix_rfl
    · rw [List.append_assoc] at htext
      exact prefix_of_stepsText htext.symm
  · rintro ⟨more, rfl⟩
    cases more with
    | nil => exact .inl (by rw [List.append_nil])
    | cons token more =>
        refine .inr ⟨token.toList.flatMap tokenChar ++ stepsText more, ?_⟩
        rw [List.append_assoc, stepsText_append, stepsText_cons]
        rfl

/-- The members of a record that can hold personal data. -/
def personalNames : List String := ["barcode", "externalSystemId", "personal", "username"]

/-- Whether a way down into a record leads through one of these members. -/
def inPersonalMember (path : List String) : Bool := path.head?.any personalNames.contains

theorem personalPaths_eq :
    personalPaths = personalNames.map fun name => pointerBelow "" [name] := by
  decide +kernel

theorem isPersonal_pointerBelow (path : List String) :
    isPersonal (pointerBelow "" path) = inPersonalMember path := by
  rw [isPersonal, personalPaths_eq, List.any_map, inPersonalMember, Bool.eq_iff_iff,
    List.any_eq_true, Option.any_eq_true]
  simp only [Function.comp_apply, isAtOrBelow_pointerBelow,
    List.singleton_prefix_iff_head?_eq_some, List.contains_iff_mem]
  exact exists_congr fun name => and_comm

/-! ## Ways down a redacted value -/

theorem getElem?_redactedItems (k n : Nat) (items : List Json) :
    (p.redactedItems pointer k items)[n]?
      = items[n]?.map (p.redacted (stepDown pointer (itemToken (k + n)))) := by
  induction items generalizing k n with
  | nil => rfl
  | cons v items ih =>
      rw [redactedItems_cons]
      cases n with
      | zero => rfl
      | succ n =>
          rw [List.getElem?_cons_succ, List.getElem?_cons_succ, ih, Nat.add_right_comm]
          rfl

theorem child?_scalar (hv : isNested v = false) (token : String) : v.child? token = none := by
  cases v with
  | arr items => cases hv
  | obj members => cases hv
  | _ => rfl

theorem neutral_not_nested (hv : isNested v = false) : isNested (neutral v) = false := by
  cases v with
  | arr items => cases hv
  | obj members => cases hv
  | _ => rfl

theorem child?_redacted (v : Json) (token : String) :
    (p.redacted pointer v).child? token
      = (v.child? token).map (p.redacted (stepDown pointer (memberToken token))) := by
  cases hv : isNested v with
  | false =>
      have hredacted : isNested (p.redact pointer v) = false := by
        rw [Policy.redact]
        split
        · exact neutral_not_nested hv
        · exact hv
      rw [redacted_scalar hv, child?_scalar hv, child?_scalar hredacted]
      rfl
  | true =>
      cases v with
      | arr items =>
          rw [redacted_arr, child?, child?]
          cases hnumber : itemNumber? token.toList with
          | none => rfl
          | some n =>
              have htoken : token = itemToken n := by
                rw [itemToken, ← itemNumber?_eq_some_iff.mp hnumber, String.ofList_toList]
              rw [Option.bind_some, Option.bind_some, getElem?_redactedItems, Nat.zero_add, htoken,
                memberToken_itemToken]
      | obj members =>
          rw [redacted_obj]
          exact Members.lookup_map
            (fun name v => p.redacted (stepDown pointer (memberToken name)) v) members token
      | _ => cases hv

/-- What a redacted value holds at a place is what the value holds there, redacted. -/
theorem follow?_redacted (pointer : String) (v : Json) (path : List String) :
    (p.redacted pointer v).follow? path
      = (v.follow? path).map (p.redacted (pointerBelow pointer path)) := by
  induction path generalizing pointer v with
  | nil => rfl
  | cons token path ih =>
      rw [follow?_cons, follow?_cons, child?_redacted, Option.bind_map, Option.map_bind]
      exact congrArg _ (funext fun w => ih _ w)

theorem not_nested_of_isScalar (hs : isScalar s = true) : isNested s = false := by
  cases s with
  | arr items => cases hs
  | obj members => cases hs
  | _ => rfl

/-- A scalar of a record stands where it stood, redacted under its pointer. -/
theorem follow?_apply (hrecord : v.Unrepeated) (hs : isScalar s = true)
    (h : v.follow? path = some s) :
    (apply (some p) v).follow? path = some (p.redact (pointerBelow "" path) s) := by
  have hnested := not_nested_of_isScalar hs
  rw [apply_some, follow?_redacted, follow?_canonical hrecord, h, Option.map_some,
    canonical_scalar hnested, Option.map_some, redacted_scalar hnested]

theorem apply_eq_refill (p : Policy) (record : Json) :
    apply (some p) record
      = record.canonical.refill ((visits record).map fun call => p.redact call.1 call.2) := by
  rw [apply, process_eq, List.mapM_pure, pure_bind]
  rfl

/-! ## The default policy -/

/-- What takes the place of a scalar that is hidden. -/
inductive Emptied : Json → Json → Prop
  | boolean (b : Bool) : Emptied (.bool b) (.bool false)
  | whole (n : Int) : Emptied (.int n) (.int 0)
  | fraction (x : Double) : Emptied (.float x) (.int 0)
  | string (text : String) : Emptied (.str text) (.str "")

theorem emptied_neutral (hs : isScalar s = true) : Emptied s (neutral s) := by
  cases s with
  | bool b => exact .boolean b
  | int n => exact .whole n
  | float x => exact .fraction x
  | str text => exact .string text
  | _ => cases hs

/-- A scalar other than null is emptied by the default policy just if it lies in a member of the
record that can hold personal data, however deep and whatever the names on the way. The rest of the
record stays in its canonical form. -/
theorem redacts_personal_members {policy : Policy} {table : String} {record : Json}
    (hdefault : policy.classifier = isPersonal) (hactive : policy.isActive table = true)
    (hrecord : record.Unrepeated) :
    (∀ path s, record.follow? path = some s → isScalar s = true →
      ∃ w, (apply (policy.forTable table) record).follow? path = some w ∧
        if inPersonalMember path then Emptied s w else w = s) ∧
    apply (policy.forTable table) record
      = record.canonical.refill (record.canonical.scalars.map fun place =>
          if inPersonalMember place.1 then neutral place.2 else place.2) := by
  have hpolicy : policy.forTable table = some policy := if_pos hactive
  have hredact : ∀ path s, policy.redact (pointerBelow "" path) s
      = if inPersonalMember path then neutral s else s := by
    intro path s
    rw [Policy.redact, hdefault, isPersonal_pointerBelow]
  rw [hpolicy]
  constructor
  · intro path s hplace hs
    refine ⟨_, follow?_apply hrecord hs hplace, ?_⟩
    rw [hredact]
    split
    · exact emptied_neutral hs
    · rfl
  · rw [apply_eq_refill, visits, List.map_map]
    simp only [Function.comp_def, hredact]

/-- A user with names that look personal in part, at another depth, or only as text. -/
def nearlyPersonal : Json :=
  .obj [("username2", .str "a"), ("", .str "b"), ("personal/email", .str "c"),
    ("data", .obj [("username", .int 4), ("/personal", .bool true)]),
    ("personal", .arr [.obj [("~1", .float .zero)], .null])]

theorem nearlyPersonal_redacted :
    userStager.policy.isActive "users" = true ∧ nearlyPersonal.Unrepeated ∧
    (∃ w, (apply (userStager.policy.forTable "users") nearlyPersonal).follow?
        ["personal", "0", "~1"] = some w ∧ Emptied (.float .zero) w) ∧
    (∃ w, (apply (userStager.policy.forTable "users") nearlyPersonal).follow?
        ["personal/email"] = some w ∧ w = .str "c") ∧
    (∃ w, (apply (userStager.policy.forTable "users") nearlyPersonal).follow?
        ["data", "username"] = some w ∧ w = .int 4) ∧
    apply (userStager.policy.forTable "users") nearlyPersonal
      = nearlyPersonal.canonical.refill (nearlyPersonal.canonical.scalars.map fun place =>
          if inPersonalMember place.1 then neutral place.2 else place.2) := by
  have hactive : userStager.policy.isActive "users" = true := by decide +kernel
  have hrecord : nearlyPersonal.Unrepeated := by
    simp [nearlyPersonal, Unrepeated, EachObject, EachItem, EachMember]
  obtain ⟨hplaces, happly⟩ := redacts_personal_members rfl hactive hrecord
  exact ⟨hactive, hrecord, hplaces ["personal", "0", "~1"] (.float .zero) (by rfl) rfl,
    hplaces ["personal/email"] (.str "c") (by rfl) rfl,
    hplaces ["data", "username"] (.int 4) (by rfl) rfl, happly⟩

end Staging.Redaction
