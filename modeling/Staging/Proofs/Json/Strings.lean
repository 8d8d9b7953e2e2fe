import Mathlib.Data.List.Basic
import Mathlib.Tactic.FinCases
import Staging.Json.Parser
import Staging.Json.Printer

/-!
# Strings read back

A way to write the characters of a string is readable if the JSON reader takes what is written for a
character as that character, wherever in a string it stands. Both ways in which records are written
are readable, so the text of a string is read as that string (`stringBody_flatMap`).
-/

namespace Staging.Json

open Text

/-- The reader takes what is written for a character as that character; something always follows,
at least the closing quote. -/
def Readable (escape : Char → List Char) : Prop :=
  ∀ (c : Char) (start rest : List Char), rest ≠ [] →
    stringBody start (escape c ++ rest)
      = (stringBody start rest).map fun (s, tail) => (c :: s, tail)

/-! ## Hexadecimal digits -/

theorem hexValue?_digitChar (d : Nat) (h : d < 16) :
    hexValue? (Nat.digitChar d).toNat = some d ∧
      hexValue? (Nat.digitChar d).toUpper.toNat = some d := by
  have : ∀ d : Fin 16, hexValue? (Nat.digitChar d).toNat = some d.val ∧
      hexValue? (Nat.digitChar d).toUpper.toNat = some d.val := by decide
  exact this ⟨d, h⟩

theorem hex_four (n : Nat) : hex 4 n = [Nat.digitChar (n / 16 / 16 / 16 % 16),
    Nat.digitChar (n / 16 / 16 % 16), Nat.digitChar (n / 16 % 16), Nat.digitChar (n % 16)] := rfl

theorem hexValue4?_of_digits {n a b c d : Nat} (hn : n < 0x10000)
    (ha : hexValue? a = some (n / 16 / 16 / 16 % 16)) (hb : hexValue? b = some (n / 16 / 16 % 16))
    (hc : hexValue? c = some (n / 16 % 16)) (hd : hexValue? d = some (n % 16)) :
    hexValue4? a b c d = some n := by
  simp only [hexValue4?, ha, hb, hc, hd, Option.pure_def, Option.bind_eq_bind, Option.bind_some]
  congr 1
  omega

theorem hex_read {n : Nat} (hn : n < 0x10000) : ∃ a b c d, hex 4 n = [a, b, c, d] ∧
    hexChars4? a b c d = some n :=
  have hmod : ∀ m : Nat, m % 16 < 16 := fun m => Nat.mod_lt m (by decide)
  ⟨_, _, _, _, hex_four n, hexValue4?_of_digits hn (hexValue?_digitChar _ (hmod _)).1
    (hexValue?_digitChar _ (hmod _)).1 (hexValue?_digitChar _ (hmod _)).1
    (hexValue?_digitChar _ (hmod _)).1⟩

theorem hex_capital_read {n : Nat} (hn : n < 0x10000) :
    ∃ a b c d, (hex 4 n).map Char.toUpper = [a, b, c, d] ∧ hexChars4? a b c d = some n :=
  have hmod : ∀ m : Nat, m % 16 < 16 := fun m => Nat.mod_lt m (by decide)
  ⟨_, _, _, _, congrArg (List.map Char.toUpper) (hex_four n),
    hexValue4?_of_digits hn (hexValue?_digitChar _ (hmod _)).2
    (hexValue?_digitChar _ (hmod _)).2 (hexValue?_digitChar _ (hmod _)).2
    (hexValue?_digitChar _ (hmod _)).2⟩

/-! ## Escapes -/

theorem toNat_valid (c : Char) : c.toNat < 0xD800 ∨ 0xDFFF < c.toNat ∧ c.toNat < 0x110000 :=
  c.valid

/-- An escape by code point stands for its character. -/
theorem escaped_point {a b c d : Char} (ch : Char) (start : List Char) {rest : List Char}
    (hrest : rest ≠ []) (h : hexChars4? a b c d = some ch.toNat) :
    escaped start ('u' :: a :: b :: c :: d :: rest) = .ok (ch, 5) := by
  obtain ⟨next, t, rfl⟩ := List.exists_cons_of_ne_nil hrest
  have hs := toNat_valid ch
  have hhigh : isHighSurrogate ch.toNat = false := by
    rw [isHighSurrogate, Bool.and_eq_false_iff, decide_eq_false_iff_not, decide_eq_false_iff_not]
    omega
  have hlow : isLowSurrogate ch.toNat = false := by
    rw [isLowSurrogate, Bool.and_eq_false_iff, decide_eq_false_iff_not, decide_eq_false_iff_not]
    omega
  simp [escaped, h, hhigh, charOfPoint, hlow, Char.ofNat_toNat]

/-- A code point above U+FFFF has two surrogates that join to it. -/
theorem surrogates_join {n : Nat} (hmin : 0x10000 ≤ n) (hmax : n < 0x110000) :
    isHighSurrogate (highSurrogate n) = true ∧ isLowSurrogate (lowSurrogate n) = true ∧
      ofSurrogates (highSurrogate n) (lowSurrogate n) = n ∧
      (isHighSurrogate n || isLowSurrogate n) = false := by
  unfold isHighSurrogate isLowSurrogate ofSurrogates highSurrogate lowSurrogate
  rw [Bool.and_eq_true, Bool.and_eq_true, Bool.or_eq_false_iff, Bool.and_eq_false_iff,
    Bool.and_eq_false_iff]
  simp only [decide_eq_true_eq, decide_eq_false_iff_not]
  omega

theorem highSurrogate_lt {n : Nat} (h : isHighSurrogate n = true) : n < 0x10000 := by
  rw [isHighSurrogate, Bool.and_eq_true, decide_eq_true_eq, decide_eq_true_eq] at h
  omega

theorem lowSurrogate_lt {n : Nat} (h : isLowSurrogate n = true) : n < 0x10000 := by
  rw [isLowSurrogate, Bool.and_eq_true, decide_eq_true_eq, decide_eq_true_eq] at h
  omega

/-- Two escapes for surrogates stand for the character that the surrogates join to. -/
theorem escaped_pair {a b c d e f g h : Char} {high low : Nat} (ch : Char) (start : List Char)
    {rest : List Char} (hrest : rest ≠ []) (hfirst : hexChars4? a b c d = some high)
    (hsecond : hexChars4? e f g h = some low) (hhigh : isHighSurrogate high = true)
    (hlow : isLowSurrogate low = true) (hjoin : ofSurrogates high low = ch.toNat)
    (hwhole : (isHighSurrogate ch.toNat || isLowSurrogate ch.toNat) = false) :
    escaped start ('u' :: a :: b :: c :: d :: '\\' :: 'u' :: e :: f :: g :: h :: rest)
      = .ok (ch, 11) := by
  obtain ⟨next, t, rfl⟩ := List.exists_cons_of_ne_nil hrest
  simp only [escaped, hfirst, hhigh, hsecond, hlow, if_true, hjoin, charOfPoint, hwhole,
    Bool.false_eq_true, if_false, Char.ofNat_toNat]

/-! ## Characters -/

theorem stringBody_escape {start s : List Char} {c : Char} {k : Nat}
    (h : escaped start s = .ok (c, k)) : stringBody start ('\\' :: s)
      = (stringBody start (s.drop k)).map fun (s, tail) => (c :: s, tail) := by
  rw [stringBody, if_neg (by decide), if_pos rfl]
  simp only [h]

theorem stringBody_verbatim {start rest : List Char} {c : Char} (hquote : c ≠ '\x22')
    (hbackslash : c ≠ '\\') (hcontrol : 0x20 ≤ c.toNat) : stringBody start (c :: rest)
      = (stringBody start rest).map fun (s, tail) => (c :: s, tail) := by
  rw [stringBody, if_neg hquote, if_neg hbackslash, if_neg (by omega)]

theorem shortEscaped?_of_shortEscape? {c letter : Char} (h : shortEscape? c = some letter) :
    shortEscaped? letter = some c ∧ letter ≠ 'u' := by
  have hall : ∀ c ∈ ['\x22', '\\', '\n', '\r', '\t', '\x08', '\x0C'], ∀ letter,
      shortEscape? c = some letter → shortEscaped? letter = some c ∧ letter ≠ 'u' := by
    intro c hc letter h
    fin_cases hc <;> (obtain rfl := Option.some.inj h; decide)
  refine hall c ?_ letter h
  by_contra hc
  simp only [List.mem_cons, List.not_mem_nil, or_false, not_or] at hc
  obtain ⟨h1, h2, h3, h4, h5, h6, h7⟩ := hc
  rw [shortEscape?, if_neg h1, if_neg h2, if_neg h3, if_neg h4, if_neg h5, if_neg h6,
    if_neg h7] at h
  cases h

theorem stringBody_short {start rest : List Char} {c letter : Char}
    (h : shortEscape? c = some letter) : stringBody start ('\\' :: letter :: rest)
      = (stringBody start rest).map fun (s, tail) => (c :: s, tail) := by
  obtain ⟨hshort, hu⟩ := shortEscaped?_of_shortEscape? h
  refine stringBody_escape (k := 1) ?_
  rw [escaped.eq_def]
  split
  · rename_i h
    cases h
  · rename_i h
    exact absurd (List.cons.inj h).1 hu
  · rename_i h
    exact absurd (List.cons.inj h).1 hu
  · rename_i h
    obtain ⟨rfl, rfl⟩ := List.cons.inj h
    rw [hshort]

theorem ne_quote_of_shortEscape? {c : Char} (h : shortEscape? c = none) :
    c ≠ '\x22' ∧ c ≠ '\\' := by
  constructor
  · rintro rfl
    exact absurd h (by decide)
  · rintro rfl
    exact absurd h (by decide)

theorem readable_escapeControl : Readable escapeControl := by
  intro c start rest hrest
  rw [escapeControl]
  split
  · rename_i letter h
    exact stringBody_short h
  · rename_i h
    obtain ⟨hquote, hbackslash⟩ := ne_quote_of_shortEscape? h
    split
    · rename_i hcontrol
      have hsmall : c.toNat < 0x10000 := by omega
      obtain ⟨a, b, e, d, hhex, hread⟩ := hex_read hsmall
      rw [codeEscape, if_pos hsmall, hhex]
      exact stringBody_escape (escaped_point c start hrest hread)
    · exact stringBody_verbatim hquote hbackslash (by omega)

theorem readable_escapeUnprintable : Readable escapeUnprintable := by
  intro c start rest hrest
  rw [escapeUnprintable]
  split
  · rename_i letter h
    exact stringBody_short h
  · rename_i h
    obtain ⟨hquote, hbackslash⟩ := ne_quote_of_shortEscape? h
    split
    · rename_i hprintable
      refine stringBody_verbatim hquote hbackslash ?_
      rw [isPrintable] at hprintable
      split at hprintable
      · exact of_decide_eq_true hprintable
      · omega
    · rw [capitalEscape]
      split
      · rename_i hsmall
        obtain ⟨a, b, e, d, hhex, hread⟩ := hex_capital_read hsmall
        rw [hhex]
        exact stringBody_escape (escaped_point c start hrest hread)
      · rename_i hlarge
        have hpoint : c.toNat < 0x110000 := by
          have := toNat_valid c
          omega
        obtain ⟨hhigh, hlow, hjoin, hwhole⟩ := surrogates_join (Nat.le_of_not_lt hlarge) hpoint
        obtain ⟨a, b, e, d, hfirst, hread⟩ := hex_capital_read (highSurrogate_lt hhigh)
        obtain ⟨a', b', e', d', hsecond, hread'⟩ := hex_capital_read (lowSurrogate_lt hlow)
        rw [hfirst, hsecond]
        exact stringBody_escape (escaped_pair c start hrest hread hread' hhigh hlow hjoin hwhole)

/-- The text of a string is read as that string. -/
theorem stringBody_flatMap {escape : Char → List Char} (h : Readable escape)
    (start rest s : List Char) :
    stringBody start (s.flatMap escape ++ '\x22' :: rest) = .ok (s, rest) := by
  induction s with
  | nil => rw [List.flatMap_nil, List.nil_append, stringBody, if_pos rfl]
  | cons c s ih =>
      rw [List.flatMap_cons, List.append_assoc, h c start _ (by simp), ih]
      rfl

/-- A character that stands for itself is one that needs no escape. -/
theorem escapeUnprintable_verbatim {c : Char} (h : isVerbatim c = true) :
    escapeUnprintable c = [c] := by
  simp only [isVerbatim, Bool.and_eq_true, bne_iff_ne] at h
  obtain ⟨⟨hprintable, hquote⟩, hbackslash⟩ := h
  -- the named control characters are unprintable, so none of them is `c`
  have hcontrol : 0x20 ≤ c.toNat := by
    rw [isPrintable] at hprintable
    split at hprintable
    · exact of_decide_eq_true hprintable
    · omega
  have hne : ∀ c' : Char, c'.toNat < 0x20 → c ≠ c' := by
    rintro c' hc' rfl
    omega
  have hshort : shortEscape? c = none := by
    rw [shortEscape?, if_neg hquote, if_neg hbackslash, if_neg (hne _ (by decide)),
      if_neg (hne _ (by decide)), if_neg (hne _ (by decide)), if_neg (hne _ (by decide)),
      if_neg (hne _ (by decide))]
  simp only [escapeUnprintable, hshort, hprintable, if_true]

/-- The text taken over whole is the one that escaping would give. -/
theorem toList_escapeText (s : String) :
    (escapeText s).toList = s.toList.flatMap escapeUnprintable := by
  rw [escapeText]
  split
  · rename_i h
    have hself : ∀ c ∈ s.toList, escapeUnprintable c = [c] :=
      fun c hc => escapeUnprintable_verbatim (List.all_eq_true.mp h c hc)
    rw [List.flatMap_congr hself, List.flatMap_singleton']
  · exact String.toList_ofList

end Staging.Json
