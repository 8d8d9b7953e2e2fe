import Staging.Proofs.Schema.Inference

/-!
# The type of a list of values

A type is selected from tallies, which no longer have the values. Nothing that matters is lost: the
type, or the conflict with the number of values on each side of it, is the one that can be read off
the values themselves (`selectType_of_values`).
-/

namespace Staging.Schema

/-! ## What occurs -/

/-- Whether a value of the kind occurs. -/
def occurs (values : List Json) (kind : Json.Kind) : Bool := values.any (·.kind == kind)

/-- Whether values occur that no column takes together: those of two of the kinds boolean, number
and string, or nested ones beside booleans or numbers. -/
def clashes (values : List Json) : Bool :=
  let boolean := occurs values .boolean
  let number := values.any isNumber
  decide (1 < [boolean, number, occurs values .string].count true)
    || values.any isNested && (boolean || number)

/-- Whether every string looks like a date and time. -/
def allTimes (values : List Json) : Bool :=
  values.all fun
    | .str s => looksLikeDateTime s
    | _ => true

/-- The type of the column that takes all of the values, if there is one. -/
def typeOf? (values : List Json) : Option ColumnType :=
  if clashes values then none
  else if occurs values .boolean then some .boolean
  else if values.any isNumber && !occurs values .float then some .bigint
  else if occurs values .float then some .numeric
  else if occurs values .string && allTimes values && !values.any isNested then some .timestamptz
  else some .varchar

/-- How many values there are of each kind that occurs. Null does not count as a kind. -/
def kindCounts (values : List Json) : List (String × Int) :=
  positive [("boolean", values.countP (·.kind == .boolean)), ("number", values.countP isNumber),
    ("string", values.countP (·.kind == .string)), ("object", values.countP (·.kind == .object)),
    ("array", values.countP (·.kind == .array))]

/-! ## Tallies of what occurs -/

theorem tallies_object : Tallies Counts.object (·.kind == .object) :=
  ⟨rfl, fun c v => by cases v <;> simp [Counts.add, Json.kind]⟩

theorem tallies_array : Tallies Counts.array (·.kind == .array) :=
  ⟨rfl, fun c v => by cases v <;> simp [Counts.add, Json.kind]⟩

namespace Tallies

variable {tally : Counts → Int} {kind : Json → Bool}

theorem eq_countP (h : Tallies tally kind) (values : List Json) :
    tally (.of values) = values.countP kind := by
  rw [Counts.of, h.foldl, h.zero, Int.zero_add]

theorem pos_iff (h : Tallies tally kind) (values : List Json) :
    0 < tally (.of values) ↔ values.any kind = true := by
  rw [h.eq_countP, Int.natCast_pos, List.countP_pos_iff, List.any_eq_true]

end Tallies

variable {values : List Json}

theorem nested_eq_zero_iff (values : List Json) :
    (Counts.of values).nested = 0 ↔ values.any isNested = false := by
  rw [← Bool.not_eq_true, ← tallies_nested.pos_iff values, tallies_nested.eq_countP]
  omega

/-- As many strings look like times as there are strings just if all of them do. -/
theorem dateTime_eq_string_iff (values : List Json) :
    (Counts.of values).dateTime = (Counts.of values).string ↔ allTimes values = true := by
  have hother := tallies_otherString.eq_countP values
  have hall : values.countP isOtherString = 0 ↔ allTimes values = true := by
    rw [List.countP_eq_zero, allTimes, List.all_eq_true]
    refine forall₂_congr fun v _ => ?_
    cases v <;> simp [isOtherString]
  rw [← hall]
  omega

theorem number_occurs_of_float (h : occurs values .float = true) :
    values.any isNumber = true := by
  obtain ⟨v, hv, hkind⟩ := List.any_eq_true.mp h
  refine List.any_eq_true.mpr ⟨v, hv, ?_⟩
  rw [isNumber, hkind, Bool.or_true]

/-! ## Selection -/

/-- Tallies are in conflict just if the values that were counted are. -/
theorem conflict_iff_clashes (values : List Json) :
    (1 < (Counts.of values).kinds.length ∨ (Counts.of values).nested ≠ 0 ∧
      (Counts.of values).kinds ≠ [] ∧ (Counts.of values).string ≤ 0) ↔ clashes values = true := by
  have hboolean := tallies_boolean.pos_iff values
  have hnumber := tallies_number.pos_iff values
  have hstring := tallies_string.pos_iff values
  have hnested := nested_eq_zero_iff values
  rw [← Int.not_lt, hstring, ne_eq, hnested, clashes]
  unfold Counts.kinds positive occurs
  cases hb : values.any (·.kind == .boolean) <;> cases hn : values.any isNumber <;>
    cases hs : values.any (·.kind == .string) <;> cases values.any isNested <;>
    simp [hb, hn, hs, hboolean, hnumber, hstring]

theorem kindCounts_eq (values : List Json) :
    (Counts.of values).kinds
        ++ positive [("object", (Counts.of values).object), ("array", (Counts.of values).array)]
      = kindCounts values := by
  rw [Counts.kinds, positive, positive, ← List.filter_append, tallies_boolean.eq_countP,
    tallies_number.eq_countP, tallies_string.eq_countP, tallies_object.eq_countP,
    tallies_array.eq_countP]
  rfl

/-- What is selected from the tallies of some values can be read off the values. -/
theorem selectType_of_values {field : String} (hfield : field ≠ idField) (values : List Json) :
    selectType field (.of values) = match typeOf? values with
      | some type => .ok type
      | none => .error ⟨field, kindCounts values⟩ := by
  have hconflict := conflict_iff_clashes values
  have hboolean : _ ↔ occurs values .boolean = true := tallies_boolean.pos_iff values
  have hfloat : _ ↔ occurs values .float = true := tallies_floating.pos_iff values
  have hstring : _ ↔ occurs values .string = true := tallies_string.pos_iff values
  have hnumber := tallies_number.pos_iff values
  have htimes := dateTime_eq_string_iff values
  have hnested := nested_eq_zero_iff values
  rw [selectType, if_neg hfield, ← kindCounts_eq, typeOf?]
  by_cases hclash : clashes values = true
  · rw [if_pos hclash]
    exact if_pos (hconflict.mpr hclash)
  rw [if_neg hclash]
  refine (if_neg fun h => hclash (hconflict.mp h)).trans ?_
  simp only [hboolean, hnumber, hfloat, hstring, htimes, hnested]
  cases hb : occurs values .boolean with
  | true => rfl
  | false =>
      cases hn : values.any isNumber with
      | true => cases occurs values .float <;> rfl
      | false =>
          have hf : occurs values .float = false :=
            Bool.eq_false_iff.mpr fun hf => Bool.false_ne_true (hn ▸ number_occurs_of_float hf)
          rw [hf]
          cases occurs values .string <;> cases allTimes values <;>
            cases values.any isNested <;> rfl

/-- A string that looks like a time beside a nested value and null. -/
def stamps : List Json := [.null, .str "2020-01-02T03:04:05Z", .arr []]

theorem selectType_stamps : "created" ≠ idField ∧
    selectType "created" (.of stamps) = .ok .varchar ∧
    selectType "created" (.of (.int 1 :: stamps))
      = .error ⟨"created", [("number", 1), ("string", 1), ("array", 1)]⟩ :=
  have hfield : "created" ≠ idField := by decide
  ⟨hfield, selectType_of_values hfield stamps, selectType_of_values hfield (.int 1 :: stamps)⟩

end Staging.Schema
