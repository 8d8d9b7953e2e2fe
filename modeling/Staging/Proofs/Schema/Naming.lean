import Mathlib.Data.List.Basic
import Staging.Schema.Naming

/-!
# What column names keep

Of the characters of a field only those in upper case change, and none of them into a double quote
or an underscore. So a column name has a double quote just where the field has one
(`quote_mem_columnName_iff`), and apart from case and underscores it holds the field as it is
(`columnName_separates`).
-/

namespace Staging.Text

/-- No lower-case form lies as low as the underscore. -/
theorem lowerShifts_above_underscore :
    ∀ s ∈ lowerShifts, ('_'.toNat : Int) < s.range.first + s.shift := by
  decide +kernel

theorem ofNat_ne {n : Nat} {d : Char} (hd : d ≠ '\x00') (h : n ≠ d.toNat) : Char.ofNat n ≠ d := by
  rintro rfl
  by_cases hn : n.isValidChar
  · rw [Char.ofNat, dif_pos hn] at h
    exact h rfl
  · rw [Char.ofNat, dif_neg hn] at hd
    exact hd rfl

/-- Lower-casing gives none of the characters up to the underscore. -/
theorem not_mem_lower {c d : Char} (hc : isUpper c = true) (hd : isUpper d = false)
    (hzero : d ≠ '\x00') (hlow : d.toNat ≤ '_'.toNat) : d ∉ lower c := by
  unfold lower
  split
  · rw [List.mem_cons, List.mem_singleton]
    rintro (rfl | rfl) <;> exact absurd hlow (by decide)
  · split
    · rename_i s hs
      have habove := lowerShifts_above_underscore s (List.mem_of_find?_eq_some hs)
      have hholds := List.find?_some hs
      unfold Stride.holds at hholds
      simp only [Bool.and_eq_true, decide_eq_true_eq] at hholds
      rw [List.mem_singleton]
      exact (ofNat_ne hzero (by omega)).symm
    · rw [List.mem_singleton]
      rintro rfl
      exact absurd hc (by simp [hd])

theorem isUpper_quote : isUpper '\x22' = false := by decide +kernel

theorem isUpper_underscore : isUpper '_' = false := by decide +kernel

theorem quote_not_mem_lower {c : Char} (hc : isUpper c = true) : '\x22' ∉ lower c :=
  not_mem_lower hc isUpper_quote (by decide) (by decide)

theorem lower_ne_nil (c : Char) : lower c ≠ [] := by
  unfold lower
  split
  · exact List.cons_ne_nil _ _
  · split <;> exact List.cons_ne_nil _ _

end Staging.Text

namespace Staging.Schema

open Text

theorem quote_mem_snakeFrom_iff (before : Option Char) (s : List Char) :
    '\x22' ∈ snakeFrom before s ↔ '\x22' ∈ s := by
  induction s generalizing before with
  | nil => exact Iff.rfl
  | cons c s ih =>
      unfold snakeFrom
      split
      · rename_i hc
        have hseparator : '\x22' ∉ if beginsWord before s.head? then ['_'] else [] := by
          split <;> decide
        have hne : '\x22' ≠ c := by
          rintro rfl
          exact absurd hc (by rw [isUpper_quote]; decide)
        simp [ih, hseparator, quote_not_mem_lower hc, hne]
      · simp [ih]

theorem quote_mem_columnName_iff (field : String) :
    '\x22' ∈ (columnName field).toList ↔ '\x22' ∈ field.toList := by
  unfold columnName
  rw [String.toList_ofList, quote_mem_snakeFrom_iff]

theorem columnName_toList_ne_nil {field : String} (h : field ≠ "") :
    (columnName field).toList ≠ [] := by
  unfold columnName
  rw [String.toList_ofList]
  cases hfield : field.toList with
  | nil => exact absurd (String.toList_eq_nil_iff.mp hfield) h
  | cons c s =>
      unfold snakeFrom
      split <;> simp [lower_ne_nil]

/-! ## Separators -/

/-- How a column name holds a character of the field. -/
def folded (c : Char) : List Char := if isUpper c then lower c else [c]

/-- The text holds the characters of a field, each folded, and at most one separator right before
each of them that is in upper case: none before the first one, and none next to an underscore of the
field. The character of the field before these is `before`. -/
inductive Separated : Option Char → List Char → List Char → Prop
  | nil {before : Option Char} : Separated before [] []
  | joined {before : Option Char} {c : Char} {s t : List Char} (rest : Separated (some c) s t) :
    Separated before (c :: s) (folded c ++ t)
  | parted {p c : Char} {s t : List Char} (hp : p ≠ '_') (hc : isUpper c = true)
    (rest : Separated (some c) s t) : Separated (some p) (c :: s) ('_' :: (folded c ++ t))

/-- A word begins after a character other than an underscore. -/
theorem exists_of_beginsWord {before after : Option Char} (h : beginsWord before after = true) :
    ∃ p, before = some p ∧ p ≠ '_' := by
  cases before with
  | none => cases h
  | some p =>
      refine ⟨p, rfl, ?_⟩
      rintro rfl
      have hnone : (isLower '_' || isDigit '_') = false := by decide +kernel
      rw [beginsWord, hnone, isUpper_underscore] at h
      cases h

theorem separated_snakeFrom (before : Option Char) (s : List Char) :
    Separated before s (snakeFrom before s) := by
  induction s generalizing before with
  | nil => exact .nil
  | cons c s ih =>
      unfold snakeFrom
      split
      · rename_i hc
        have hfolded : lower c = folded c := by rw [folded, if_pos hc]
        rw [List.append_assoc, hfolded]
        split
        · rename_i hword
          obtain ⟨p, rfl, hp⟩ := exists_of_beginsWord hword
          exact .parted hp hc (ih _)
        · exact .joined (ih _)
      · rename_i hc
        have hjoined : Separated before (c :: s) (folded c ++ snakeFrom (some c) s) :=
          .joined (ih _)
        rw [folded, if_neg hc] at hjoined
        exact hjoined

/-! ## What two fields of one column have in common -/

/-- A field without underscores, each character folded. -/
def bare (s : List Char) : List Char := (s.filter (· != '_')).flatMap folded

theorem filter_folded {c : Char} (hc : c ≠ '_') : (folded c).filter (· != '_') = folded c := by
  refine List.filter_eq_self.mpr fun d hd => ?_
  rw [bne_iff_ne]
  rintro rfl
  unfold folded at hd
  split at hd
  · rename_i hupper
    exact not_mem_lower hupper isUpper_underscore (by decide) (by decide) hd
  · exact hc (List.mem_singleton.mp hd).symm

theorem filter_folded_append (c : Char) (s : List Char) :
    (folded c).filter (· != '_') ++ bare s = bare (c :: s) := by
  unfold bare
  by_cases hc : c = '_'
  · subst hc
    rw [List.filter_cons_of_neg (by decide), folded, isUpper_underscore]
    rfl
  · rw [filter_folded hc, List.filter_cons_of_pos (by simpa using hc), List.flatMap_cons]

namespace Separated

variable {before : Option Char} {s t : List Char}

/-- Without underscores nothing is left of the separators. -/
theorem filter_eq_bare (h : Separated before s t) : t.filter (· != '_') = bare s := by
  induction h with
  | nil => rfl
  | joined _ ih => rw [List.filter_append, ih, filter_folded_append]
  | parted _ _ _ ih =>
      rw [List.filter_cons_of_neg (by decide), List.filter_append, ih, filter_folded_append]

theorem eq_of_not_upper (h : Separated before s t) (hs : ∀ c ∈ s, isUpper c = false) : t = s := by
  induction h with
  | nil => rfl
  | joined _ ih =>
      obtain ⟨hc, hs⟩ := List.forall_mem_cons.mp hs
      rw [ih hs, folded, hc]
      rfl
  | parted _ hc _ _ =>
      have hnone := (List.forall_mem_cons.mp hs).1
      rw [hc] at hnone
      cases hnone

end Separated

/-- A column name is its field with upper case folded and separators put in. So fields with the same
column name differ in case and in underscores only, and a field without upper case is its own
column name. -/
theorem columnName_separates (field other : String) :
    Separated none field.toList (columnName field).toList ∧
      (columnName field = columnName other → bare field.toList = bare other.toList) ∧
      ((∀ c ∈ field.toList, isUpper c = false) → columnName field = field) := by
  have hseparated : ∀ name, Separated none name.toList (columnName name).toList := by
    intro name
    rw [columnName, String.toList_ofList]
    exact separated_snakeFrom none name.toList
  refine ⟨hseparated field, fun hsame => ?_, fun hs => ?_⟩
  · calc bare field.toList = (columnName field).toList.filter (· != '_') :=
          (hseparated field).filter_eq_bare.symm
      _ = (columnName other).toList.filter (· != '_') := by rw [hsame]
      _ = bare other.toList := (hseparated other).filter_eq_bare
  · exact String.ext ((hseparated field).eq_of_not_upper hs)

theorem status_separates : columnName "http_status" = columnName "HTTPStatus" ∧
    bare "http_status".toList = bare "HTTPStatus".toList ∧
    (∀ c ∈ "http_status".toList, isUpper c = false) ∧
    columnName "http_status" = "http_status" := by
  have hsame : columnName "http_status" = columnName "HTTPStatus" := by decide +kernel
  have hall : "http_status".toList.all (!isUpper ·) = true := by decide +kernel
  have hplain : ∀ c ∈ "http_status".toList, isUpper c = false :=
    fun c hc => by simpa using List.all_eq_true.mp hall c hc
  obtain ⟨-, hbare, hself⟩ := columnName_separates "http_status" "HTTPStatus"
  exact ⟨hsame, hbare hsame, hplain, hself hplain⟩

end Staging.Schema
