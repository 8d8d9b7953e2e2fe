import Staging.Proofs.Json.Numeral
import Staging.Proofs.Sql.Row
import Staging.Sql.Definition
import Staging.Sql.Insert

/-!
# Rows as the database reads them

A scanner of tuples that knows nothing of how they were written: a string literal ends at its first
quote that is not one of a pair and not behind a backslash, any other value is a word, commas
separate and parentheses enclose. Whatever a record holds, its row is scanned as the tuple that was
meant, and the text of an INSERT statement as its tuples.
-/

namespace Staging.Sql

/-! ## The scanner -/

/-- A value of a tuple. -/
inductive Lexeme
  | string (content : List Char)
  | word (text : List Char)
  deriving DecidableEq, Repr

/-- Reads a string literal from after its opening quote on: its content, and the rest. -/
def scanString : List Char → Option (List Char × List Char)
  | [] => none
  | c :: rest =>
    if c = '\x27' then
      match rest with
      | '\x27' :: more => (scanString more).map fun (s, tail) => ('\x27' :: s, tail)
      | _ => some ([], rest)
    else if c = '\\' then
      match rest with
      | [] => none
      | d :: more => (scanString more).map fun (s, tail) => (d :: s, tail)
    else (scanString rest).map fun (s, tail) => (c :: s, tail)

/-- The characters of words and numbers. -/
def isWordChar (c : Char) : Bool := c.isAlphanum || c == '.' || c == '+' || c == '-'

/-- Reads a value. -/
def scanValue (s : List Char) : Option (Lexeme × List Char) :=
  match s with
  | '\x27' :: rest => (scanString rest).map fun (s, tail) => (.string s, tail)
  | 'E' :: '\x27' :: rest => (scanString rest).map fun (s, tail) => (.string s, tail)
  | _ =>
    match s.takeWhile isWordChar with
    | [] => none
    | word => some (.word word, s.dropWhile isWordChar)

/-- Reads values up to the closing parenthesis. Each takes one of the steps. -/
def scanValues : Nat → List Char → Option (List Lexeme × List Char)
  | 0, _ => none
  | steps + 1, s =>
    match scanValue s with
    | some (v, ')' :: rest) => some ([v], rest)
    | some (v, ',' :: rest) => (scanValues steps rest).map fun (vs, tail) => (v :: vs, tail)
    | _ => none

/-- Reads a tuple. -/
def scanTuple : List Char → Option (List Lexeme × List Char)
  | '(' :: rest => scanValues rest.length rest
  | _ => none

/-- Reads tuples up to the end of the statement. Each takes one of the steps. -/
def scanTuples : Nat → List Char → Option (List (List Lexeme))
  | 0, _ => none
  | steps + 1, s =>
    match scanTuple s with
    | some (t, [';', '\n']) => some [t]
    | some (t, ',' :: rest) => (scanTuples steps rest).map (t :: ·)
    | _ => none

/-- Reads what follows VALUES in a statement. -/
def scanBody (s : List Char) : Option (List (List Lexeme)) :=
  if s = [';', '\n'] then some [] else scanTuples s.length s

/-! ## Values -/

/-- What follows a value in a tuple. -/
def EndsValue (rest : List Char) : Prop := ∃ c t, rest = c :: t ∧ (c = ',' ∨ c = ')')

/-- A text that is read as one value. -/
def Scans (text : String) (l : Lexeme) : Prop :=
  ∀ rest, EndsValue rest → scanValue (text.toList ++ rest) = some (l, rest)

/-- The content that was escaped is what is read. -/
theorem scanString_escaped {rest : List Char} (hrest : rest.head? ≠ some '\x27') (s : List Char) :
    scanString (s.flatMap Dialect.escapeChar ++ '\x27' :: rest) = some (s, rest) := by
  induction s with
  | nil =>
      rw [List.flatMap_nil, List.nil_append, scanString.eq_def]
      simp only [if_true]
      split
      · exact absurd rfl hrest
      · rfl
  | cons c s ih =>
      rw [List.flatMap_cons, List.append_assoc, Dialect.escapeChar]
      by_cases hbackslash : c = '\\'
      · rw [if_pos hbackslash, hbackslash, List.cons_append, List.singleton_append,
          scanString.eq_def]
        simp only [Char.reduceEq, if_false, if_true, ih, Option.map_some]
      · rw [if_neg hbackslash]
        by_cases hquote : c = '\x27'
        · rw [if_pos hquote, hquote, List.cons_append, List.singleton_append, scanString.eq_def]
          simp only [if_true, ih, Option.map_some]
        · rw [if_neg hquote, List.singleton_append, scanString.eq_def]
          simp only [if_neg hquote, if_neg hbackslash, ih, Option.map_some]

theorem EndsValue.head {rest : List Char} (h : EndsValue rest) : rest.head? ≠ some '\x27' := by
  obtain ⟨c, t, rfl, hc⟩ := h
  rintro ⟨⟩
  rcases hc with hc | hc <;> exact absurd hc (by decide)

/-- A string literal is read as the text it was made of, in every dialect. -/
theorem scans_literal (d : Dialect) (s : String) : Scans (d.literal s) (.string s.toList) := by
  intro rest hrest
  have hread := scanString_escaped hrest.head s.toList
  cases d with
  | postgres =>
      rw [Dialect.literal, String.toList_ofList]
      simp only [Dialect.literalMark, List.cons_append, List.nil_append, List.append_assoc,
        scanValue, hread, Option.map_some]
  | redshift =>
      rw [Dialect.literal, String.toList_ofList]
      simp only [Dialect.literalMark, List.cons_append, List.nil_append, List.append_assoc,
        scanValue, hread, Option.map_some]

/-- No two strings have one literal. -/
theorem literal_injective (d : Dialect) {s t : String} (h : d.literal s = d.literal t) : s = t := by
  have hends : EndsValue [','] := ⟨',', [], rfl, .inl rfl⟩
  have hread := scans_literal d s _ hends
  rw [h, scans_literal d t _ hends] at hread
  obtain ⟨hvalue, -⟩ := Prod.mk.inj (Option.some.inj hread)
  exact (String.toList_injective (Lexeme.string.inj hvalue)).symm

theorem scans_word {w : List Char} (hne : w ≠ []) (hw : ∀ c ∈ w, isWordChar c = true) :
    Scans (String.ofList w) (.word w) := by
  rintro rest ⟨c', t', rfl, hc'⟩
  obtain ⟨c, t, rfl⟩ := List.exists_cons_of_ne_nil hne
  have hend : isWordChar c' = false := by
    rcases hc' with rfl | rfl <;> decide
  have htake : ((c :: t) ++ c' :: t').takeWhile isWordChar = c :: t := by
    rw [List.takeWhile_append_of_pos hw, List.takeWhile_cons, hend]
    exact List.append_nil _
  have hdrop : ((c :: t) ++ c' :: t').dropWhile isWordChar = c' :: t' := by
    rw [List.dropWhile_append_of_pos hw, List.dropWhile_cons, hend]
    rfl
  rw [String.toList_ofList, scanValue.eq_def]
  split
  · rename_i heq
    obtain ⟨rfl, -⟩ := List.cons.inj heq
    exact absurd (hw _ List.mem_cons_self) (by decide)
  · -- the word goes on behind an E, or ends there: neither way does a quote follow
    rename_i heq
    obtain ⟨-, htail⟩ := List.cons.inj heq
    cases t with
    | nil =>
        obtain ⟨rfl, -⟩ := List.cons.inj htail
        rcases hc' with h | h <;> exact absurd h (by decide)
    | cons d t =>
        obtain ⟨rfl, -⟩ := List.cons.inj htail
        exact absurd (hw _ (List.mem_cons_of_mem c List.mem_cons_self)) (by decide)
  · rw [htake, hdrop]

/-! ## Words -/

theorem isWordChar_of_isDigit {c : Char} (h : c.isDigit = true) : isWordChar c = true := by
  rw [isWordChar, Char.isAlphanum, h, Bool.or_true]
  rfl

theorem isWordChar_toDigits (n : Nat) : ∀ c ∈ Nat.toDigits 10 n, isWordChar c = true :=
  fun c hc => isWordChar_of_isDigit (Json.toDigits_isDigit n c hc)

theorem isWordChar_append {s t : List Char} (hs : ∀ c ∈ s, isWordChar c = true)
    (ht : ∀ c ∈ t, isWordChar c = true) : ∀ c ∈ s ++ t, isWordChar c = true := by
  intro c hc
  rcases List.mem_append.mp hc with hc | hc
  · exact hs c hc
  · exact ht c hc

theorem isWordChar_cons {c : Char} {t : List Char} (hc : isWordChar c = true)
    (ht : ∀ c ∈ t, isWordChar c = true) : ∀ d ∈ c :: t, isWordChar d = true := by
  intro d hd
  rcases List.mem_cons.mp hd with rfl | hd
  · exact hc
  · exact ht d hd

theorem isWordChar_intChars (n : Int) : ∀ c ∈ Json.intChars n, isWordChar c = true := by
  rw [Json.intChars]
  refine isWordChar_append ?_ (isWordChar_toDigits n.natAbs)
  split <;> exact List.all_eq_true.mp (by decide)

theorem isWordChar_exponentChars (e : Int) :
    ∀ c ∈ Double.exponentChars e, isWordChar c = true := by
  rw [Double.exponentChars]
  refine isWordChar_cons (by decide) (isWordChar_cons (by split <;> decide) ?_)
  split
  · exact isWordChar_cons (by decide) (isWordChar_toDigits e.natAbs)
  · exact isWordChar_toDigits e.natAbs

theorem isWordChar_layOut {ds : List Char} (point : Int)
    (hds : ∀ c ∈ ds, c.isDigit = true) : ∀ c ∈ Double.layOut ds point, isWordChar c = true := by
  have hword : ∀ c ∈ ds, isWordChar c = true := fun c hc => isWordChar_of_isDigit (hds c hc)
  have hzeros : ∀ k, ∀ c ∈ List.replicate k '0', isWordChar c = true :=
    fun k c hc => isWordChar_of_isDigit (Json.replicate_isDigit k c hc)
  rw [Double.layOut.eq_def]
  split
  · split
    · exact isWordChar_append (isWordChar_cons (by decide) (isWordChar_cons (by decide) (hzeros _)))
        hword
    · split
      · exact isWordChar_append (fun c hc => hword c (List.mem_of_mem_take hc))
          (isWordChar_cons (by decide) fun c hc => hword c (List.mem_of_mem_drop hc))
      · exact isWordChar_append (isWordChar_append hword (hzeros _))
          (List.all_eq_true.mp (by decide))
  · cases ds with
    | nil => exact fun c hc => absurd hc List.not_mem_nil
    | cons d rest =>
        have hd := hword d List.mem_cons_self
        cases rest with
        | nil => exact isWordChar_cons hd (isWordChar_exponentChars _)
        | cons d' rest =>
            exact isWordChar_append (isWordChar_cons hd (isWordChar_cons (by decide)
              fun c hc => hword c (List.mem_cons_of_mem d hc))) (isWordChar_exponentChars _)

theorem isWordChar_doubleChars (x : Double) :
    ∀ c ∈ x.chars DoubleWords.plain, isWordChar c = true := by
  have hmagnitude : ∀ c ∈ x.magnitudeChars, isWordChar c = true := by
    rcases Nat.eq_zero_or_pos x.rank with hrank | hpos
    · have hzero : x.isZero = true := beq_iff_eq.mpr hrank
      rw [Double.magnitudeChars, if_pos hzero]
      exact List.all_eq_true.mp (by decide)
    · obtain ⟨ds, point, htext, -, -, hdigits, -⟩ := Json.magnitudeChars_eq hpos
      rw [htext]
      exact isWordChar_layOut point hdigits
  rw [Double.chars]
  split
  · exact List.all_eq_true.mp (by decide)
  · refine isWordChar_append ?_ ?_
    · split <;> exact List.all_eq_true.mp (by decide)
    · split
      · exact List.all_eq_true.mp (by decide)
      · exact hmagnitude

theorem scans_int (n : Int) :
    Scans (String.ofList (Json.intChars n)) (.word (Json.intChars n)) := by
  obtain ⟨c, t, hct, -⟩ := Json.intChars_head n
  exact scans_word (by rw [hct]; exact List.cons_ne_nil c t) (isWordChar_intChars n)

theorem scans_double (x : Double) : Scans x.text (.word (x.chars .plain)) := by
  refine scans_word ?_ (isWordChar_doubleChars x)
  rw [Double.chars]
  split
  · decide
  · refine List.append_ne_nil_of_right_ne_nil _ ?_
    split
    · decide
    · obtain ⟨c, t, hct, -⟩ := Json.magnitudeChars_head x
      rw [hct]
      exact List.cons_ne_nil c t

/-! ## Tuples -/

theorem scanValues_last {steps : Nat} {s rest : List Char} {v : Lexeme}
    (h : scanValue s = some (v, ')' :: rest)) : scanValues (steps + 1) s = some ([v], rest) := by
  rw [scanValues, h]
  rfl

theorem scanValues_more {steps : Nat} {s rest tail : List Char} {v : Lexeme} {vs : List Lexeme}
    (h : scanValue s = some (v, ',' :: rest)) (hmore : scanValues steps rest = some (vs, tail)) :
    scanValues (steps + 1) s = some (v :: vs, tail) := by
  rw [scanValues, h]
  simp only [hmore, Option.map_some]

theorem scanValues_texts {texts : List String} {ls : List Lexeme} (h : List.Forall₂ Scans texts ls)
    (hne : texts ≠ []) {steps : Nat} (hsteps : texts.length ≤ steps) (rest : List Char) :
    scanValues steps ((",".intercalate texts).toList ++ ')' :: rest) = some (ls, rest) := by
  induction h generalizing steps with
  | nil => exact absurd rfl hne
  | @cons text l texts ls hfirst hmore ih =>
      obtain ⟨steps, rfl⟩ : ∃ k, steps = k + 1 :=
        ⟨steps - 1, by rw [List.length_cons] at hsteps; omega⟩
      cases hmore with
      | nil =>
          rw [String.intercalate_singleton]
          exact scanValues_last (hfirst _ ⟨_, _, rfl, .inr rfl⟩)
      | @cons text' l' texts ls hsecond hmore =>
          have hread := ih (List.cons_ne_nil _ _) (Nat.le_of_succ_le_succ hsteps)
          rw [String.intercalate_cons_cons, String.toList_append, String.toList_append,
            List.append_assoc, List.append_assoc]
          exact scanValues_more (hfirst _ ⟨_, _, rfl, .inl rfl⟩) hread

theorem length_le_intercalate {separator : String} (hpos : 0 < separator.toList.length)
    (texts : List String) :
    texts.length ≤ (separator.intercalate texts).toList.length + 1 := by
  induction texts with
  | nil => exact Nat.zero_le _
  | cons text texts ih =>
      cases texts with
      | nil => exact Nat.succ_le_succ (Nat.zero_le _)
      | cons text' texts =>
          rw [String.intercalate_cons_cons, String.toList_append, String.toList_append,
            List.length_append, List.length_append, List.length_cons]
          omega

/-- A tuple is read value by value, and nothing of it is left over. -/
theorem scanTuple_tuple {texts : List String} {ls : List Lexeme}
    (h : List.Forall₂ Scans texts ls) (hne : texts ≠ []) (rest : List Char) :
    scanTuple ((Encoder.tuple texts).toList ++ rest) = some (ls, rest) := by
  have hsplit : (Encoder.tuple texts).toList ++ rest
      = '(' :: ((",".intercalate texts).toList ++ ')' :: rest) := by
    rw [Encoder.tuple, String.toList_append, String.toList_append, List.append_assoc,
      List.append_assoc]
    rfl
  have hsteps : texts.length ≤ (",".intercalate texts).toList.length + 1 :=
    length_le_intercalate (by decide) texts
  rw [hsplit, scanTuple]
  refine scanValues_texts h hne ?_ rest
  rw [List.length_append, List.length_cons]
  omega

/-! ## Statements -/

/-- A text that is read as one tuple, whatever follows it. -/
def ScansTuple (text : String) (t : List Lexeme) : Prop :=
  ∀ rest, scanTuple (text.toList ++ rest) = some (t, rest)

theorem scanTuples_texts {texts : List String} {ts : List (List Lexeme)}
    (h : List.Forall₂ ScansTuple texts ts) (hne : texts ≠ []) {steps : Nat}
    (hsteps : texts.length ≤ steps) :
    scanTuples steps ((",".intercalate texts).toList ++ [';', '\n']) = some ts := by
  induction h generalizing steps with
  | nil => exact absurd rfl hne
  | @cons text t texts ts hfirst hmore ih =>
      obtain ⟨steps, rfl⟩ : ∃ k, steps = k + 1 :=
        ⟨steps - 1, by rw [List.length_cons] at hsteps; omega⟩
      cases hmore with
      | nil =>
          rw [String.intercalate_singleton, scanTuples, hfirst]
          rfl
      | @cons text' t' texts ts hsecond hmore =>
          have hread := ih (List.cons_ne_nil _ _) (Nat.le_of_succ_le_succ hsteps)
          have hcomma : ",".toList ++ ((",".intercalate (text' :: texts)).toList ++ [';', '\n'])
              = ',' :: ((",".intercalate (text' :: texts)).toList ++ [';', '\n']) := rfl
          rw [String.intercalate_cons_cons, String.toList_append, String.toList_append,
            List.append_assoc, List.append_assoc, hcomma, scanTuples, hfirst]
          simp only [hread, Option.map_some]

/-- What follows VALUES is read as the tuples that were joined, none included. -/
theorem scanBody_texts {texts : List String} {ts : List (List Lexeme)}
    (h : List.Forall₂ ScansTuple texts ts) :
    scanBody (",".intercalate texts ++ Batch.terminator).toList = some ts := by
  have hend : Batch.terminator.toList = [';', '\n'] := rfl
  rw [String.toList_append, hend, scanBody]
  cases h with
  | nil => rfl
  | @cons text t texts ts hfirst hmore =>
      have hsteps : (text :: texts).length
          ≤ ((",".intercalate (text :: texts)).toList ++ [';', '\n']).length := by
        rw [List.length_append]
        exact Nat.le_trans (length_le_intercalate (by decide) _) (Nat.add_le_add_left (by decide) _)
      have hread := scanTuples_texts (.cons hfirst hmore) (List.cons_ne_nil _ _) hsteps
      -- the end alone is no tuple
      rw [if_neg, hread]
      intro hend
      rw [hend] at hread
      cases hread

end Staging.Sql
