import Mathlib.Data.List.TakeWhile
import Staging.Number.Reading

/-!
# How an integer is written

A word is read as an integer if it writes one (`readInt_eq_ok_iff`): a sign or none, and then digits
of any script, no more than `maxDigits`, any two of which may have an underscore between.
-/

namespace Staging.Number

open Text

variable {s word : List Char} {ds : List Nat} {n : Int}

/-! ## Grouped digits -/

/-- The characters write these digits, any two of them perhaps with an underscore between. -/
inductive Grouped : List Char → List Nat → Prop
  | last {c : Char} {d : Nat} (hc : decimalValue? c = some d) : Grouped [c] [d]
  | next {c : Char} {d : Nat} {s : List Char} {ds : List Nat} (hc : decimalValue? c = some d)
    (hs : Grouped s ds) : Grouped (c :: s) (d :: ds)
  | apart {c : Char} {d : Nat} {s : List Char} {ds : List Nat} (hc : decimalValue? c = some d)
    (hs : Grouped s ds) : Grouped (c :: '_' :: s) (d :: ds)

/-- What is grouped begins with a digit. -/
theorem Grouped.head (h : Grouped s ds) :
    ∃ c d rest, s = c :: rest ∧ decimalValue? c = some d := by
  cases h with
  | last hc => exact ⟨_, _, _, rfl, hc⟩
  | next hc _ => exact ⟨_, _, _, rfl, hc⟩
  | apart hc _ => exact ⟨_, _, _, rfl, hc⟩

theorem decimalValue?_underscore : decimalValue? '_' = none := by decide

theorem grouped?_eq_some_iff : grouped? s = some ds ↔ Grouped s ds := by
  constructor
  · intro h
    fun_induction grouped? s generalizing ds with
    | case1 => cases h
    | case2 c =>
        obtain ⟨d, hc, rfl⟩ := Option.map_eq_some_iff.mp h
        exact .last hc
    | case3 c rest ih =>
        obtain ⟨d, hc, h⟩ := Option.bind_eq_some_iff.mp h
        obtain ⟨more, hrest, h⟩ := Option.bind_eq_some_iff.mp h
        obtain rfl := Option.some.inj h
        exact .apart hc (ih hrest)
    | case4 c rest _ _ ih =>
        obtain ⟨d, hc, h⟩ := Option.bind_eq_some_iff.mp h
        obtain ⟨more, hrest, h⟩ := Option.bind_eq_some_iff.mp h
        obtain rfl := Option.some.inj h
        exact .next hc (ih hrest)
  · intro h
    induction h with
    | last hc => rw [grouped?, hc, Option.map_some]
    | apart hc _ ih => simp [grouped?, hc, ih]
    | next hc hs ih =>
        obtain ⟨c', d', rest, rfl, hc'⟩ := hs.head
        have hne : c' ≠ '_' := by
          rintro rfl
          rw [decimalValue?_underscore] at hc'
          cases hc'
        rw [grouped?]
        · simp [hc, ih]
        · exact List.cons_ne_nil _ _
        · rintro more heq
          exact hne (List.cons.inj heq).1

theorem Grouped.all_inGroup (h : Grouped s ds) : s.all inGroup = true := by
  have hdigit : ∀ {c d}, decimalValue? c = some d → inGroup c = true := by
    intro c d hc
    simp [inGroup, isDecimal, hc]
  induction h with
  | last hc => simp [hdigit hc]
  | next hc _ ih => rw [List.all_cons, hdigit hc, ih, Bool.and_self]
  | apart hc _ ih =>
      rw [List.all_cons, List.all_cons, hdigit hc, ih]
      rfl

/-! ## Integers -/

/-- The word writes the integer. -/
inductive Writes : List Char → Int → Prop
  | plain {s : List Char} {ds : List Nat} (hs : Grouped s ds) (hfew : ds.length ≤ maxDigits) :
    Writes s (ofDigits ds)
  | plus {s : List Char} {ds : List Nat} (hs : Grouped s ds) (hfew : ds.length ≤ maxDigits) :
    Writes ('+' :: s) (ofDigits ds)
  | minus {s : List Char} {ds : List Nat} (hs : Grouped s ds) (hfew : ds.length ≤ maxDigits) :
    Writes ('-' :: s) (-ofDigits ds)

/-- The integer with these digits and this sign. -/
def signed (negative : Bool) (ds : List Nat) : Int :=
  if negative then -ofDigits ds else ofDigits ds

/-- Digits are no sign. -/
theorem Grouped.sign_eq (h : Grouped s ds) : sign s = (false, s) := by
  obtain ⟨c, d, rest, rfl, hc⟩ := h.head
  have hminus : decimalValue? '-' = none := by decide
  have hplus : decimalValue? '+' = none := by decide
  unfold sign
  split
  · rename_i heq
    rw [(List.cons.inj heq).1, hminus] at hc
    cases hc
  · rename_i heq
    rw [(List.cons.inj heq).1, hplus] at hc
    cases hc
  · rfl

theorem writes_iff : Writes word n ↔ ∃ ds, Grouped (sign word).2 ds ∧ ds.length ≤ maxDigits ∧
    signed (sign word).1 ds = n := by
  constructor
  · intro h
    cases h with
    | plain hs hfew =>
        rw [hs.sign_eq]
        exact ⟨_, hs, hfew, rfl⟩
    | plus hs hfew => exact ⟨_, hs, hfew, rfl⟩
    | minus hs hfew => exact ⟨_, hs, hfew, rfl⟩
  · rintro ⟨ds, hs, hfew, rfl⟩
    unfold sign at hs ⊢
    split at hs
    · exact .minus hs hfew
    · exact .plus hs hfew
    · exact .plain hs hfew

theorem trimBy_eq_self {p : Char → Bool} (h : ∀ c ∈ word, p c = false) : trimBy p word = word := by
  have hdrop : ∀ s : List Char, (∀ c ∈ s, p c = false) → s.dropWhile p = s :=
    fun s hs => List.dropWhile_eq_self_iff.mpr fun hl => by simp [hs _ (List.getElem_mem hl)]
  unfold trimBy
  rw [hdrop word h, hdrop word.reverse (fun c hc => h c (List.mem_reverse.mp hc)),
    List.reverse_reverse]

/-- A word is read as the integer that it writes, and as none if it writes none. -/
theorem readInt_eq_ok_iff (hword : ∀ c ∈ word, isBlank c = false) :
    readInt (String.ofList word) = .ok n ↔ Writes word n := by
  have htrim : trimBy isMargin word = word :=
    trimBy_eq_self fun c hc => by rw [isMargin, hword c hc, Bool.false_and]
  rw [writes_iff, readInt, String.toList_ofList, htrim]
  generalize sign word = signed?
  obtain ⟨negative, body⟩ := signed?
  constructor
  · intro h
    dsimp only at h
    split at h
    · cases h
    · rename_i ds hgroup
      split at h
      · cases h
      · split at h
        · rename_i hall
          rw [List.takeWhile_eq_self_iff.mpr (List.all_eq_true.mp hall)] at hgroup
          exact ⟨ds, grouped?_eq_some_iff.mp hgroup, by omega, Except.ok.inj h⟩
        · cases h
  · rintro ⟨ds, hs, hfew, rfl⟩
    dsimp only at hs ⊢
    have hall := hs.all_inGroup
    rw [List.takeWhile_eq_self_iff.mpr (List.all_eq_true.mp hall), grouped?_eq_some_iff.mpr hs]
    dsimp only
    rw [if_neg (by omega), if_pos hall]
    rfl

end Staging.Number
