import Staging.Json.Parser
import Staging.Json.Printer
import Staging.Proofs.Number.Decimal

/-!
# Numerals read back

The JSON reader takes the text of an integer for that integer, and the text of a finite double for
that double: the layout of its digits keeps the value of the shortest decimal (`reads_layOut`),
and that decimal is attracted by the double. A numeral must not be followed by what would extend it.
-/

namespace Staging.Json

open Number

/-- A text that cannot extend a numeral before it. -/
def EndsNumeral (rest : List Char) : Prop :=
  ∀ c ∈ rest.head?, c.isDigit = false ∧ c ≠ '.' ∧ c ≠ 'e' ∧ c ≠ 'E'

/-- A text that cannot extend a run of digits before it. -/
def EndsDigits (rest : List Char) : Prop :=
  ∀ c ∈ rest.head?, c.isDigit = false

theorem EndsNumeral.endsDigits {rest : List Char} (h : EndsNumeral rest) : EndsDigits rest :=
  fun c hc => (h c hc).1

theorem endsDigits_cons {c : Char} {rest : List Char} (h : c.isDigit = false) :
    EndsDigits (c :: rest) := by
  intro c' hc'
  obtain rfl := Option.some.inj hc'
  exact h

/-! ## Runs of digits -/

theorem takeWhile_digits {ds rest : List Char} (hds : ∀ c ∈ ds, c.isDigit = true)
    (hrest : EndsDigits rest) :
    (ds ++ rest).takeWhile Char.isDigit = ds ∧ (ds ++ rest).dropWhile Char.isDigit = rest := by
  have hnone : rest.takeWhile Char.isDigit = [] ∧ rest.dropWhile Char.isDigit = rest := by
    cases rest with
    | nil => exact ⟨rfl, rfl⟩
    | cons c t =>
        have hc : c.isDigit = false := hrest c rfl
        simp [hc]
  rw [List.takeWhile_append_of_pos hds, List.dropWhile_append_of_pos hds, hnone.1, hnone.2]
  exact ⟨List.append_nil ds, rfl⟩

/-- The whole part is the run of digits, as it does not begin with a zero. -/
theorem takeWhole?_digits {ds rest : List Char} (hds : ∀ c ∈ ds, c.isDigit = true) (hne : ds ≠ [])
    (hzero : ds.head? ≠ some '0') (hrest : EndsDigits rest) :
    takeWhole? (ds ++ rest) = some (ds, rest) := by
  obtain ⟨c, t, rfl⟩ := List.exists_cons_of_ne_nil hne
  have hc : c ≠ '0' := fun h => hzero (by rw [h]; rfl)
  obtain ⟨htake, hdrop⟩ := takeWhile_digits hds hrest
  rw [List.cons_append] at htake hdrop ⊢
  rw [takeWhole?.eq_def]
  split
  · rename_i h
    exact absurd (List.cons.inj h).1 hc
  · rename_i h
    rw [htake, hdrop]

theorem takeFraction?_digits {ds rest : List Char} (hds : ∀ c ∈ ds, c.isDigit = true)
    (hne : ds ≠ []) (hrest : EndsDigits rest) : takeFraction? ('.' :: (ds ++ rest)) = some (ds, rest) := by
  obtain ⟨htake, hdrop⟩ := takeWhile_digits hds hrest
  obtain ⟨c, t, rfl⟩ := List.exists_cons_of_ne_nil hne
  simp only [takeFraction?, htake, hdrop]

theorem takeFraction?_none {rest : List Char} (h : rest.head? ≠ some '.') :
    takeFraction? rest = none := by
  rw [takeFraction?.eq_def]
  split
  · exact absurd rfl h
  · rfl

theorem takeExponent?_none {rest : List Char} (h : ∀ c ∈ rest.head?, c ≠ 'e' ∧ c ≠ 'E') :
    takeExponent? rest = none := by
  cases rest with
  | nil => rfl
  | cons c t =>
      have hc := h c rfl
      rw [takeExponent?, if_neg (by tauto)]

theorem ofDigits_digitValues (ds : List Char) :
    ofDigits (digitValues ds) = Nat.ofDigitChars 10 ds 0 := by
  simp [ofDigits, digitValues, Nat.ofDigitChars, List.foldl_map]

/-! ## Integers -/

theorem toDigits_isDigit (n : Nat) : ∀ c ∈ Nat.toDigits 10 n, c.isDigit = true :=
  fun _ hc => Nat.isDigit_of_mem_toDigits (by decide) (by decide) hc

/-- Only zero has a numeral that begins with a zero. -/
theorem toDigits_head (n : Nat) (hn : 0 < n) : (Nat.toDigits 10 n).head? ≠ some '0' := by
  induction n using Nat.strongRecOn with
  | ind n ih =>
      rcases Nat.lt_or_ge n 10 with hlt | hge
      · rw [Nat.toDigits_of_lt_base hlt]
        have : ∀ m : Fin 10, 0 < m.val → [Nat.digitChar m].head? ≠ some '0' := by decide
        exact this ⟨n, hlt⟩ hn
      · rw [Nat.toDigits_of_base_le (by decide) hge]
        have hdiv : 0 < n / 10 := Nat.div_pos hge (by decide)
        obtain ⟨c, t, hct⟩ :=
          List.exists_cons_of_ne_nil (Nat.toDigits_ne_nil (n := n / 10) (b := 10))
        have := ih (n / 10) (Nat.div_lt_self hn (by decide)) hdiv
        rw [hct] at this ⊢
        exact this

theorem takeWhole?_toDigits {n : Nat} {rest : List Char} (hrest : EndsDigits rest) :
    takeWhole? (Nat.toDigits 10 n ++ rest) = some (Nat.toDigits 10 n, rest) := by
  rcases Nat.eq_zero_or_pos n with rfl | hn
  · rw [Nat.toDigits_zero]
    rfl
  · exact takeWhole?_digits (toDigits_isDigit n) Nat.toDigits_ne_nil (toDigits_head n hn) hrest

/-- The greatest magnitude of an integer of 64 bits has fewer digits than can be read. -/
theorem length_toDigits_le {n : Nat} (h : n ≤ Nat.pow 2 63) :
    (Nat.toDigits 10 n).length ≤ maxDigits := by
  have hlt : n < 10 ^ 19 := Nat.lt_of_le_of_lt h (by decide)
  exact Nat.le_trans ((Nat.length_toDigits_le_iff (by decide) (by decide)).2 hlt) (by decide)

theorem numeral_toDigits {n : Nat} (s : List Char) (negative : Bool) {rest : List Char}
    (h : n ≤ Nat.pow 2 63) (hrest : EndsNumeral rest) :
    numeral s negative (Nat.toDigits 10 n ++ rest)
      = .ok (.int (if negative then -(n : Int) else n), rest) := by
  have hfraction : takeFraction? rest = none :=
    takeFraction?_none fun hdot => (hrest '.' hdot).2.1 rfl
  have hexponent : takeExponent? rest = none :=
    takeExponent?_none fun c hc => (hrest c hc).2.2
  have hlength := length_toDigits_le h
  have hvalue : ofDigits (digitValues (Nat.toDigits 10 n)) = n := by
    rw [ofDigits_digitValues, Nat.ofDigitChars_ten_toDigits]
  simp only [numeral, takeWhole?_toDigits hrest.endsDigits, hfraction, hexponent, Option.getD_none,
    List.isEmpty_nil, Option.isNone_none, Bool.and_self, if_true, hvalue]
  rw [if_neg (by omega)]

/-! ## Exponents -/

theorem exponentChars_eq (e : Int) : ∃ ds : List Char,
    Double.exponentChars e = 'e' :: (if e < 0 then '-' else '+') :: ds ∧ ds ≠ [] ∧
      (∀ c ∈ ds, c.isDigit = true) ∧ Nat.ofDigitChars 10 ds 0 = e.natAbs := by
  refine ⟨_, rfl, ?_⟩
  split
  · refine ⟨List.cons_ne_nil _ _, List.forall_mem_cons.2 ⟨rfl, toDigits_isDigit _⟩, ?_⟩
    rw [Nat.ofDigitChars_cons]
    exact Nat.ofDigitChars_ten_toDigits
  · exact ⟨Nat.toDigits_ne_nil, toDigits_isDigit _, Nat.ofDigitChars_ten_toDigits⟩

theorem takeExponent?_exponentChars (e : Int) {rest : List Char} (hrest : EndsDigits rest) :
    takeExponent? (Double.exponentChars e ++ rest) = some (e, rest) := by
  obtain ⟨ds, hds, hne, hdigits, hvalue⟩ := exponentChars_eq e
  obtain ⟨htake, hdrop⟩ := takeWhile_digits hdigits hrest
  obtain ⟨c, t, rfl⟩ := List.exists_cons_of_ne_nil hne
  rw [hds]
  by_cases he : e < 0
  · have hsign : sign ('-' :: (c :: t ++ rest)) = (true, c :: t ++ rest) := rfl
    simp only [if_pos he, List.cons_append] at hsign ⊢
    simp only [takeExponent?, hsign, true_or, if_true]
    rw [← List.cons_append, htake, hdrop]
    simp only [ofDigits_digitValues, hvalue]
    congr 2
    omega
  · have hsign : sign ('+' :: (c :: t ++ rest)) = (false, c :: t ++ rest) := rfl
    simp only [if_neg he, List.cons_append] at hsign ⊢
    simp only [takeExponent?, hsign, true_or, if_true]
    rw [← List.cons_append, htake, hdrop]
    simp only [Bool.false_eq_true, if_false, ofDigits_digitValues, hvalue]
    congr 2
    omega

/-! ## Doubles -/

/-- A numeral with a fraction, and perhaps an exponent after it, is a double. -/
theorem numeral_fraction {whole fraction after rest : List Char} {e : Int} (s : List Char)
    (negative : Bool) (hdigits : ∀ c ∈ fraction, c.isDigit = true) (hne : fraction ≠ [])
    (hwhole : takeWhole? (whole ++ '.' :: (fraction ++ after))
      = some (whole, '.' :: (fraction ++ after)))
    (hafter : EndsDigits after) (he : (takeExponent? after).getD (0, after) = (e, rest)) :
    numeral s negative (whole ++ '.' :: (fraction ++ after)) = .ok (.float (.ofDecimal negative
      (Nat.ofDigitChars 10 (whole ++ fraction) 0) (e - fraction.length)), rest) := by
  have hfraction := takeFraction?_digits hdigits hne hafter
  have hempty : fraction.isEmpty = false := List.isEmpty_eq_false_iff.2 hne
  simp only [numeral, hwhole, hfraction, Option.getD_some, hempty, he, Bool.false_and,
    Bool.false_eq_true, if_false, ofDigits_digitValues]

theorem numeral_exponent {whole rest : List Char} (e : Int) (s : List Char) (negative : Bool)
    (hwhole : takeWhole? (whole ++ (Double.exponentChars e ++ rest))
      = some (whole, Double.exponentChars e ++ rest)) (hrest : EndsDigits rest) :
    numeral s negative (whole ++ (Double.exponentChars e ++ rest))
      = .ok (.float (.ofDecimal negative (Nat.ofDigitChars 10 whole 0) e), rest) := by
  have hfraction : takeFraction? (Double.exponentChars e ++ rest) = none :=
    takeFraction?_none (by simp [Double.exponentChars])
  have hexponent := takeExponent?_exponentChars e hrest
  simp only [numeral, hwhole, hfraction, Option.getD_none, hexponent, Option.getD_some,
    Option.isNone_some, Bool.and_false, Bool.false_eq_true, if_false, ofDigits_digitValues,
    List.append_nil, List.length_nil, Int.natCast_zero, Int.sub_zero]

theorem ofDigitChars_zeros_append (k : Nat) (ds : List Char) :
    Nat.ofDigitChars 10 (List.replicate k '0' ++ ds) 0 = Nat.ofDigitChars 10 ds 0 := by
  rw [Nat.ofDigitChars_append, Nat.ofDigitChars_replicate_zero, Nat.mul_zero]

theorem ofDigitChars_append_zeros (k : Nat) (ds : List Char) :
    Nat.ofDigitChars 10 (ds ++ List.replicate k '0') 0
      = Nat.ofDigitChars 10 ds 0 * Nat.pow 10 k := by
  rw [Nat.ofDigitChars_append, Nat.ofDigitChars_replicate_zero, Nat.mul_comm]
  rfl

theorem replicate_isDigit (k : Nat) : ∀ c ∈ List.replicate k '0', c.isDigit = true := by
  intro c hc
  rw [List.eq_of_mem_replicate hc]
  rfl

/-- The text before `rest` is read as a decimal that is this one. -/
def ReadsDecimal (s : List Char) (negative : Bool) (text rest : List Char) (d : Decimal) : Prop :=
  ∃ c e, numeral s negative (text ++ rest) = .ok (.float (.ofDecimal negative c e), rest) ∧
    Decimal.Same d ⟨c, e⟩

section

variable {ds : List Char} {point : Int} (s : List Char) (negative : Bool) {rest : List Char}

theorem endsDigits_point (t : List Char) : EndsDigits ('.' :: t) := endsDigits_cons rfl

theorem EndsNumeral.exponent (h : EndsNumeral rest) :
    (takeExponent? rest).getD (0, rest) = (0, rest) := by
  rw [takeExponent?_none fun c hc => (h c hc).2.2]
  rfl

theorem reads_pointBefore (hds : ∀ c ∈ ds, c.isDigit = true) (hne : ds ≠ [])
    (hrest : EndsNumeral rest) (hpoint : point ≤ 0) :
    ReadsDecimal s negative ('0' :: '.' :: List.replicate point.natAbs '0' ++ ds) rest
      ⟨Nat.ofDigitChars 10 ds 0, point - ds.length⟩ := by
  have hfraction := List.forall_mem_append.2 ⟨replicate_isDigit point.natAbs, hds⟩
  have hwhole : ∀ t, takeWhole? (['0'] ++ '.' :: t) = some (['0'], '.' :: t) := fun _ => rfl
  have hread := numeral_fraction s negative hfraction (by simp [hne]) (hwhole _)
    hrest.endsDigits hrest.exponent
  refine ⟨_, _, Eq.trans (congrArg (numeral s negative) (by simp)) hread, ?_⟩
  have hvalue : Nat.ofDigitChars 10 (['0'] ++ (List.replicate point.natAbs '0' ++ ds)) 0
      = Nat.ofDigitChars 10 ds 0 := ofDigitChars_zeros_append (point.natAbs + 1) ds
  have hplaces : (0 : Int) - (List.replicate point.natAbs '0' ++ ds).length
      = point - ds.length := by
    rw [List.length_append, List.length_replicate]
    omega
  rw [hvalue, hplaces]
  exact Decimal.Same.refl _

theorem reads_pointAmong (hds : ∀ c ∈ ds, c.isDigit = true) (hne : ds ≠ [])
    (hzero : ds.head? ≠ some '0') (hrest : EndsNumeral rest) (hpos : 0 < point)
    (hpoint : point < ds.length) :
    ReadsDecimal s negative (ds.take point.natAbs ++ '.' :: ds.drop point.natAbs) rest
      ⟨Nat.ofDigitChars 10 ds 0, point - ds.length⟩ := by
  have htake : ds.take point.natAbs ≠ [] := by
    rw [Ne, List.take_eq_nil_iff, not_or]
    exact ⟨by omega, hne⟩
  have hdrop : ds.drop point.natAbs ≠ [] := by
    rw [Ne, List.drop_eq_nil_iff]
    omega
  have hhead : (ds.take point.natAbs).head? ≠ some '0' := by
    rw [List.head?_take, if_neg (by omega)]
    exact hzero
  have hread := numeral_fraction s negative (fun c hc => hds c (List.mem_of_mem_drop hc)) hdrop
    (takeWhole?_digits (fun c hc => hds c (List.mem_of_mem_take hc)) htake hhead
      (endsDigits_point _))
    hrest.endsDigits hrest.exponent
  refine ⟨_, _, Eq.trans (congrArg (numeral s negative) (by simp)) hread, ?_⟩
  have hplaces : (0 : Int) - (ds.drop point.natAbs).length = point - ds.length := by
    rw [List.length_drop]
    omega
  rw [List.take_append_drop, hplaces]
  exact Decimal.Same.refl _

theorem reads_pointAfter (hds : ∀ c ∈ ds, c.isDigit = true) (hne : ds ≠ [])
    (hzero : ds.head? ≠ some '0') (hrest : EndsNumeral rest) (hpoint : ds.length ≤ point) :
    ReadsDecimal s negative
      (ds ++ List.replicate (point.natAbs - ds.length) '0' ++ ['.', '0']) rest
      ⟨Nat.ofDigitChars 10 ds 0, point - ds.length⟩ := by
  have hwhole : ∀ c ∈ ds ++ List.replicate (point.natAbs - ds.length) '0', c.isDigit = true :=
    List.forall_mem_append.2 ⟨hds, replicate_isDigit _⟩
  have hhead : (ds ++ List.replicate (point.natAbs - ds.length) '0').head? ≠ some '0' := by
    obtain ⟨d, t, rfl⟩ := List.exists_cons_of_ne_nil hne
    exact hzero
  have hfraction : ∀ c ∈ ['0'], c.isDigit = true := replicate_isDigit 1
  have hread := numeral_fraction s negative hfraction (List.cons_ne_nil _ _)
    (takeWhole?_digits hwhole (by simp [hne]) hhead (endsDigits_point _))
    hrest.endsDigits hrest.exponent
  refine ⟨_, _, Eq.trans (congrArg (numeral s negative) (by simp)) hread, ?_⟩
  have hvalue := ofDigitChars_append_zeros (point.natAbs - ds.length + 1) ds
  rw [List.replicate_succ', ← List.append_assoc] at hvalue
  have hplaces : point - ds.length
      = 0 - (['0'].length : Int) + ↑(point.natAbs - ds.length + 1) := by
    rw [List.length_singleton]
    omega
  rw [hvalue, hplaces]
  exact (Decimal.same_shift _ _ _).symm

theorem reads_exponent {d d' : Char} {t : List Char}
    (hds : ∀ c ∈ d :: d' :: t, c.isDigit = true) (hzero : (d :: d' :: t).head? ≠ some '0')
    (hrest : EndsNumeral rest) :
    ReadsDecimal s negative (d :: '.' :: (d' :: t) ++ Double.exponentChars (point - 1)) rest
      ⟨Nat.ofDigitChars 10 (d :: d' :: t) 0, point - (d :: d' :: t).length⟩ := by
  have hone : ∀ c ∈ [d], c.isDigit = true := by simpa using hds d (List.mem_cons_self ..)
  have hmark : EndsDigits (Double.exponentChars (point - 1) ++ rest) := endsDigits_cons rfl
  have hread := numeral_fraction s negative
    (fun c hc => hds c (List.mem_cons_of_mem d hc)) (List.cons_ne_nil d' t)
    (takeWhole?_digits hone (List.cons_ne_nil _ _) hzero (endsDigits_point _)) hmark
    (congrArg (Option.getD · _) (takeExponent?_exponentChars _ hrest.endsDigits))
  refine ⟨_, _, Eq.trans (congrArg (numeral s negative) (by simp)) hread, ?_⟩
  have hplaces : point - (d :: d' :: t).length = point - 1 - (d' :: t).length := by
    simp only [List.length_cons]
    omega
  rw [hplaces]
  exact Decimal.Same.refl _

/-- Digits laid out around a point are read as a decimal of their value. -/
theorem reads_layOut (point : Int) (hds : ∀ c ∈ ds, c.isDigit = true) (hne : ds ≠ [])
    (hzero : ds.head? ≠ some '0') (hrest : EndsNumeral rest) :
    ReadsDecimal s negative (Double.layOut ds point) rest
      ⟨Nat.ofDigitChars 10 ds 0, point - ds.length⟩ := by
  rw [Double.layOut.eq_def]
  split
  · split
    · exact reads_pointBefore s negative hds hne hrest (by omega)
    · split
      · exact reads_pointAmong s negative hds hne hzero hrest (by omega) (by omega)
      · exact reads_pointAfter s negative hds hne hzero hrest (by omega)
  · cases ds with
    | nil => exact absurd rfl hne
    | cons d t =>
        cases t with
        | nil =>
            have hread := numeral_exponent (point - 1) s negative
              (takeWhole?_digits hds hne hzero (endsDigits_cons rfl)) hrest.endsDigits
            exact ⟨_, _, hread, Decimal.Same.refl _⟩
        | cons d' t => exact reads_exponent s negative hds hzero hrest

end

theorem strip_zeros (l : List Char) :
    ∃ k, l = (l.reverse.dropWhile (· == '0')).reverse ++ List.replicate k '0' := by
  refine ⟨(l.reverse.takeWhile (· == '0')).length, ?_⟩
  have hzeros : l.reverse.takeWhile (· == '0')
      = List.replicate (l.reverse.takeWhile (· == '0')).length '0' := by
    refine List.eq_replicate_of_mem fun c hc => ?_
    have := List.all_eq_true.mp List.all_takeWhile c hc
    simpa using this
  have hsplit := congrArg List.reverse
    (List.takeWhile_append_dropWhile (p := (· == '0')) (l := l.reverse))
  rw [List.reverse_append, List.reverse_reverse] at hsplit
  rw [hzeros, List.reverse_replicate] at hsplit
  exact hsplit.symm

/-- The text of a magnitude other than zero lays out the digits of a decimal that is attracted. -/
theorem magnitudeChars_eq {x : Double} (hpos : 0 < x.rank) :
    ∃ ds point, x.magnitudeChars = Double.layOut ds point ∧ ds ≠ [] ∧ ds.head? ≠ some '0' ∧
      (∀ c ∈ ds, c.isDigit = true) ∧
      x.AttractsDecimal ⟨Nat.ofDigitChars 10 ds 0, point - ds.length⟩ := by
  have hattracted := x.shortest_attracted
  have hc := hattracted.coefficient_pos hpos
  have hnonzero : x.isZero = false := by simpa [Double.isZero] using Nat.ne_of_gt hpos
  obtain ⟨k, hk⟩ := strip_zeros (Nat.toDigits 10 x.shortest.coefficient)
  rw [Double.magnitudeChars, hnonzero, if_neg Bool.false_ne_true]
  refine ⟨_, _, rfl, ?_⟩
  generalize ((Nat.toDigits 10 x.shortest.coefficient).reverse.dropWhile (· == '0')).reverse = ds
    at hk
  have hhead := toDigits_head _ hc
  have hne : ds ≠ [] := by
    rintro rfl
    rw [hk] at hhead
    cases k with
    | zero => exact Nat.toDigits_ne_nil hk
    | succ k => exact hhead rfl
  refine ⟨hne, ?_, ?_, ?_⟩
  · obtain ⟨d, t, rfl⟩ := List.exists_cons_of_ne_nil hne
    rw [hk] at hhead
    exact hhead
  · intro c hc
    exact toDigits_isDigit _ c (by rw [hk]; exact List.mem_append_left _ hc)
  · have hvalue : x.shortest.coefficient = Nat.ofDigitChars 10 ds 0 * Nat.pow 10 k := by
      rw [← ofDigitChars_append_zeros, ← hk, Nat.ofDigitChars_ten_toDigits]
    have hplaces : ((Nat.toDigits 10 x.shortest.coefficient).length + x.shortest.exponent
        - ds.length : Int) = x.shortest.exponent + k := by
      rw [hk, List.length_append, List.length_replicate]
      omega
    have hshift := Decimal.same_shift (Nat.ofDigitChars 10 ds 0) k x.shortest.exponent
    rw [← hvalue] at hshift
    rw [hplaces]
    exact Double.AttractsDecimal.congr hshift hattracted

/-- The text of a magnitude is read as the double of that magnitude. -/
theorem numeral_magnitude {x : Double} (hfin : x.isFinite = true) (s : List Char) (negative : Bool)
    {rest : List Char} (hrest : EndsNumeral rest) :
    numeral s negative (x.magnitudeChars ++ rest) = .ok (.float ⟨negative, x.rank⟩, rest) := by
  rcases Nat.eq_zero_or_pos x.rank with hrank | hpos
  · have hzero : x.isZero = true := by simpa [Double.isZero] using hrank
    have hwhole : ∀ t, takeWhole? (['0'] ++ '.' :: t) = some (['0'], '.' :: t) := fun _ => rfl
    have hfraction : ∀ c ∈ ['0'], c.isDigit = true := replicate_isDigit 1
    have hexponent : (takeExponent? rest).getD (0, rest) = (0, rest) := by
      rw [takeExponent?_none fun c hc => (hrest c hc).2.2]
      rfl
    rw [Double.magnitudeChars, if_pos hzero, hrank]
    exact numeral_fraction s negative hfraction (List.cons_ne_nil _ _) (hwhole _)
      hrest.endsDigits hexponent
  · obtain ⟨ds, point, htext, hne, hhead, hdigits, hat⟩ := magnitudeChars_eq hpos
    obtain ⟨c, e, hread, hsame⟩ := reads_layOut s negative point hdigits hne hhead hrest
    rw [htext, hread, Double.ofDecimal_of_attracts negative hpos hfin (hat.congr hsame)]

/-! ## Scalars -/

theorem scalar_of_digit {c : Char} {t : List Char} (hc : c.isDigit = true) :
    scalar (c :: t) = numeral (c :: t) false (c :: t) := by
  rw [scalar.eq_def]
  split
  all_goals first
    | rfl
    | (rename_i h; cases h; exact absurd hc (by decide))

theorem scalar_of_minus_digit {c : Char} {t : List Char} (hc : c.isDigit = true) :
    scalar ('-' :: c :: t) = numeral ('-' :: c :: t) true (c :: t) := by
  have hI : c ≠ 'I' := by
    rintro rfl
    exact absurd hc (by decide)
  rw [scalar.eq_def]
  split <;> simp_all

theorem scalar_intChars {n : Int} {rest : List Char} (h : n.natAbs ≤ Nat.pow 2 63)
    (hrest : EndsNumeral rest) : scalar (intChars n ++ rest) = .ok (.int n, rest) := by
  obtain ⟨c, t, hct⟩ := List.exists_cons_of_ne_nil (Nat.toDigits_ne_nil (n := n.natAbs) (b := 10))
  have hc : c.isDigit = true :=
    toDigits_isDigit n.natAbs c (by rw [hct]; exact List.mem_cons_self ..)
  rw [intChars]
  split
  · rename_i hn
    have hread := numeral_toDigits ('-' :: (Nat.toDigits 10 n.natAbs ++ rest)) true h hrest
    rw [hct] at hread ⊢
    refine (scalar_of_minus_digit hc).trans (hread.trans ?_)
    congr 3
    simp only [if_true]
    omega
  · rename_i hn
    have hread := numeral_toDigits (Nat.toDigits 10 n.natAbs ++ rest) false h hrest
    rw [hct] at hread ⊢
    refine (scalar_of_digit hc).trans (hread.trans ?_)
    congr 3
    simp only [Bool.false_eq_true, if_false]
    omega

theorem magnitudeChars_head (x : Double) : ∃ c t, x.magnitudeChars = c :: t ∧ c.isDigit = true := by
  rcases Nat.eq_zero_or_pos x.rank with hrank | hpos
  · have hzero : x.isZero = true := by simpa [Double.isZero] using hrank
    exact ⟨'0', ['.', '0'], by rw [Double.magnitudeChars, if_pos hzero], rfl⟩
  · obtain ⟨ds, point, htext, hne, -, hdigits, -⟩ := magnitudeChars_eq hpos
    obtain ⟨d, t, rfl⟩ := List.exists_cons_of_ne_nil hne
    have hd := hdigits d (List.mem_cons_self ..)
    rw [htext, Double.layOut.eq_def]
    split
    · split
      · exact ⟨'0', _, rfl, rfl⟩
      · split
        · rename_i hpoint _
          obtain ⟨k, hk⟩ : ∃ k, point.natAbs = k + 1 := ⟨point.natAbs - 1, by omega⟩
          exact ⟨d, _, by rw [hk]; rfl, hd⟩
        · exact ⟨d, _, rfl, hd⟩
    · cases t with
      | nil => exact ⟨d, _, rfl, hd⟩
      | cons d' t' => exact ⟨d, _, rfl, hd⟩

/-- Only the digits and the sign of a finite double are written, whatever the words. -/
theorem doubleChars_eq {x : Double} {words : DoubleWords} (hfin : x.isFinite = true) :
    x.chars words = (if x.negative then ['-'] else []) ++ x.magnitudeChars := by
  have hlt : x.rank < Double.infinityRank := of_decide_eq_true hfin
  have hnan : x.isNaN = false := decide_eq_false (by omega)
  have hinf : x.isInfinite = false := by simpa [Double.isInfinite] using Nat.ne_of_lt hlt
  rw [Double.chars, hnan, if_neg Bool.false_ne_true, hinf, if_neg Bool.false_ne_true]

/-- The text of a finite double is read as that double. -/
theorem scalar_doubleChars {x : Double} {words : DoubleWords} {rest : List Char}
    (hfin : x.isFinite = true) (hrest : EndsNumeral rest) :
    scalar (x.chars words ++ rest) = .ok (.float x, rest) := by
  obtain ⟨c, t, hct, hc⟩ := magnitudeChars_head x
  rw [doubleChars_eq hfin]
  by_cases hneg : x.negative = true
  · have hread := numeral_magnitude hfin ('-' :: (x.magnitudeChars ++ rest)) true hrest
    rw [if_pos hneg]
    rw [hct] at hread ⊢
    refine (scalar_of_minus_digit hc).trans (hread.trans ?_)
    rw [← hneg]
  · have hread := numeral_magnitude hfin (x.magnitudeChars ++ rest) false hrest
    rw [if_neg hneg]
    rw [hct] at hread ⊢
    refine (scalar_of_digit hc).trans (hread.trans ?_)
    rw [← Bool.eq_false_iff.2 hneg]

theorem intChars_head (n : Int) :
    ∃ c t, intChars n = c :: t ∧ (c = '-' ∨ c.isDigit = true) := by
  obtain ⟨c, t, hct⟩ := List.exists_cons_of_ne_nil (Nat.toDigits_ne_nil (n := n.natAbs) (b := 10))
  have hc : c.isDigit = true :=
    toDigits_isDigit n.natAbs c (by rw [hct]; exact List.mem_cons_self ..)
  rw [intChars, hct]
  split
  · exact ⟨'-', _, rfl, .inl rfl⟩
  · exact ⟨c, t, rfl, .inr hc⟩

theorem doubleChars_head (words : DoubleWords) {x : Double} (hfin : x.isFinite = true) :
    ∃ c t, x.chars words = c :: t ∧ (c = '-' ∨ c.isDigit = true) := by
  obtain ⟨c, t, hct, hc⟩ := magnitudeChars_head x
  rw [doubleChars_eq hfin, hct]
  split
  · exact ⟨'-', _, rfl, .inl rfl⟩
  · exact ⟨c, t, rfl, .inr hc⟩

end Staging.Json
