import Staging.Proofs.Page.Assembly

/-!
# Strings in the texts of records

Between its quotes a string is written in printable characters, and every quote among them is
escaped: an odd number of backslashes stands before it. The pieces that are written for single
characters keep this when they are joined, as none of them ends within an escape (`Sealed`). So the
text between the quotes is read as the string and nothing more (`escapeText_sealed`).
-/

namespace Staging.Json

open Text

/-! ## Quotes behind backslashes -/

/-- How many backslashes a text ends in. -/
def backslashes (s : List Char) : Nat := (s.reverse.takeWhile (· == '\\')).length

/-- Every quote in the text is escaped, and no escape is left open at its end. -/
structure Sealed (s : List Char) : Prop where
  quotes : ∀ before after, s = before ++ '\x22' :: after → backslashes before % 2 = 1
  closed : backslashes s % 2 = 0

theorem backslashes_append_singleton {s : List Char} {c : Char} (hc : c ≠ '\\') :
    backslashes (s ++ [c]) = 0 := by
  simp [backslashes, hc]

theorem backslashes_append_backslash (s : List Char) :
    backslashes (s ++ ['\\']) = backslashes s + 1 := by
  simp [backslashes]

/-- Behind a text without an open escape the backslashes pair up as they do alone. -/
theorem backslashes_append_mod {s : List Char} (hs : backslashes s % 2 = 0) (t : List Char) :
    backslashes (s ++ t) % 2 = backslashes t % 2 := by
  induction t using List.reverseRecOn with
  | nil => simpa [backslashes] using hs
  | append_singleton t c ih =>
      rw [← List.append_assoc]
      by_cases hc : c = '\\'
      · subst hc
        rw [backslashes_append_backslash, backslashes_append_backslash]
        omega
      · rw [backslashes_append_singleton hc, backslashes_append_singleton hc]

theorem sealed_nil : Sealed [] where
  quotes before after h := by simp at h
  closed := rfl

/-- A backslash takes the next character with it, whatever that is. -/
theorem sealed_pair (c : Char) : Sealed ['\\', c] where
  quotes before after h := by
    match before, h with
    | ['\\'], _ => rfl
    | _ :: _ :: before, h => simp at h
  closed := by
    by_cases hc : c = '\\'
    · subst hc
      rfl
    · exact congrArg (· % 2) (backslashes_append_singleton (s := ['\\']) hc)

theorem sealed_singleton {c : Char} (hquote : c ≠ '\x22') (hbackslash : c ≠ '\\') : Sealed [c] where
  quotes before after h := by
    have hmem : '\x22' ∈ [c] := h ▸ List.mem_append_right before List.mem_cons_self
    exact absurd (List.mem_singleton.mp hmem).symm hquote
  closed := congrArg (· % 2) (backslashes_append_singleton (s := []) hbackslash)

theorem Sealed.append {s t : List Char} (hs : Sealed s) (ht : Sealed t) : Sealed (s ++ t) where
  quotes before after h := by
    rcases List.append_eq_append_iff.mp h with ⟨between, rfl, hbetween⟩ | ⟨between, hs', hbetween⟩
    · rw [backslashes_append_mod hs.closed]
      exact ht.quotes between after hbetween
    · cases between with
      | nil =>
          rw [List.append_nil] at hs'
          subst hs'
          exact absurd (ht.quotes [] after hbetween.symm) (by decide)
      | cons c between =>
          obtain ⟨rfl, -⟩ := List.cons.inj hbetween
          exact hs.quotes before between hs'
  closed := by rw [backslashes_append_mod hs.closed, ht.closed]

theorem sealed_flatMap {α : Type} {f : α → List Char} {l : List α} (h : ∀ a ∈ l, Sealed (f a)) :
    Sealed (l.flatMap f) := by
  induction l with
  | nil => exact sealed_nil
  | cons a l ih =>
      obtain ⟨ha, hl⟩ := List.forall_mem_cons.mp h
      rw [List.flatMap_cons]
      exact ha.append (ih hl)

/-! ## What is written for a character -/

theorem sealed_of_verbatim {s : List Char} (h : ∀ c ∈ s, isVerbatim c = true) : Sealed s := by
  rw [← List.flatMap_singleton' s]
  refine sealed_flatMap fun c hc => ?_
  have hself := h c hc
  simp only [isVerbatim, Bool.and_eq_true, bne_iff_ne] at hself
  exact sealed_singleton hself.1.2 hself.2

theorem isPrintable_of_verbatim {c : Char} (h : isVerbatim c = true) : isPrintable c = true := by
  simp only [isVerbatim, Bool.and_eq_true] at h
  exact h.1.1

/-- The digits of an escape stand for themselves. -/
theorem verbatim_capitalDigit {n : Nat} {c : Char} (hc : c ∈ (hex 4 n).map Char.toUpper) :
    isVerbatim c = true := by
  have hdigit : ∀ d : Fin 16, isVerbatim (Nat.digitChar d).toUpper = true := by decide +kernel
  have hmod : ∀ m : Nat, m % 16 < 16 := fun m => Nat.mod_lt m (by decide)
  rw [hex_four] at hc
  simp only [List.map_cons, List.map_nil, List.mem_cons, List.not_mem_nil, or_false] at hc
  rcases hc with rfl | rfl | rfl | rfl <;> exact hdigit ⟨_, hmod _⟩

/-- Characters that can all be shown and are sealed, as they are written for one character. -/
structure Piece (s : List Char) : Prop where
  closed : Sealed s
  shown : ∀ c ∈ s, isPrintable c = true

theorem Piece.append {s t : List Char} (hs : Piece s) (ht : Piece t) : Piece (s ++ t) :=
  ⟨hs.closed.append ht.closed, List.forall_mem_append.mpr ⟨hs.shown, ht.shown⟩⟩

theorem piece_pair {letter : Char} (h : isPrintable letter = true) : Piece ['\\', letter] :=
  ⟨sealed_pair letter, by simpa using ⟨by decide +kernel, h⟩⟩

theorem piece_shortEscape {c letter : Char} (h : shortEscape? c = some letter) :
    Piece ['\\', letter] := by
  refine piece_pair ?_
  unfold shortEscape? at h
  split_ifs at h <;> (obtain rfl := Option.some.inj h; decide +kernel)

theorem piece_capitalEscape (n : Nat) : Piece (capitalEscape n) := by
  have hunit : ∀ m, Piece ('\\' :: 'u' :: (hex 4 m).map Char.toUpper) := by
    intro m
    have hdigits : Piece ((hex 4 m).map Char.toUpper) :=
      ⟨sealed_of_verbatim fun _ => verbatim_capitalDigit,
        fun _ hc => isPrintable_of_verbatim (verbatim_capitalDigit hc)⟩
    have hmark : Piece ['\\', 'u'] := piece_pair (by decide +kernel)
    exact hmark.append hdigits
  unfold capitalEscape
  split
  · exact hunit n
  · exact (hunit _).append (hunit _)

theorem piece_escapeUnprintable (c : Char) : Piece (escapeUnprintable c) := by
  unfold escapeUnprintable
  split
  · rename_i h
    exact piece_shortEscape h
  · rename_i h
    obtain ⟨hquote, hbackslash⟩ := ne_quote_of_shortEscape? h
    split
    · rename_i hshown
      exact ⟨sealed_singleton hquote hbackslash, by simpa using hshown⟩
    · exact piece_capitalEscape _

theorem piece_escapeText (s : String) : Piece (escapeText s).toList := by
  rw [toList_escapeText]
  refine ⟨sealed_flatMap fun c _ => (piece_escapeUnprintable c).closed, fun d hd => ?_⟩
  obtain ⟨c, -, hd⟩ := List.mem_flatMap.mp hd
  exact (piece_escapeUnprintable c).shown d hd

/-! ## Strings between quotes -/

/-- The control characters: those before the space and those from U+007F to U+009F. -/
def IsControl (c : Char) : Prop := c.toNat < 0x20 ∨ 0x7F ≤ c.toNat ∧ c.toNat ≤ 0x9F

theorem not_isControl_of_isPrintable {c : Char} (h : isPrintable c = true) : ¬IsControl c := by
  unfold isPrintable at h
  unfold IsControl
  split at h
  · rename_i hascii
    have hshown := of_decide_eq_true h
    omega
  · have hfirst : (0x7F, 0xA0) ∈ unprintable := List.mem_cons_self
    rw [Bool.not_eq_true', List.any_eq_false] at h
    have hshown := h _ hfirst
    simp only [Bool.and_eq_true, decide_eq_true_eq] at hshown
    omega

/-- Between quotes the text for a string is read as that string. All its characters can be shown,
none is a control character, and every quote among them is escaped. Whether it was taken over whole
makes no difference. -/
theorem escapeText_sealed (s : String) :
    parse ("\"" ++ escapeText s ++ "\"") = .ok (.str s) ∧
      (∀ before after, (escapeText s).toList = before ++ '\x22' :: after →
        backslashes before % 2 = 1) ∧
      (∀ c ∈ (escapeText s).toList, isPrintable c = true ∧ ¬IsControl c) ∧
      (escapeText s).toList = s.toList.flatMap escapeUnprintable := by
  have hpiece := piece_escapeText s
  refine ⟨?_, hpiece.closed.quotes, fun c hc => ?_, toList_escapeText s⟩
  · rw [Page.Assembly.quoted_eq]
    exact parse_render (v := .str s) Page.Assembly.readable_layout rfl
  · exact ⟨hpiece.shown c hc, not_isControl_of_isPrintable (hpiece.shown c hc)⟩

/-- A backslash, a quote, an unprintable character above U+FFFF and a control character. -/
def awkwardText : String := String.ofList ['\\', '\x22', Char.ofNat 0xE0001, '\x07']

theorem awkwardText_sealed :
    parse ("\"" ++ escapeText awkwardText ++ "\"") = .ok (.str awkwardText) ∧
      (escapeText awkwardText).toList
        = ['\\', '\\', '\\'] ++ '\x22' :: "\\uDB40\\uDC01\\u0007".toList ∧
      backslashes ['\\', '\\', '\\'] % 2 = 1 ∧
      '7' ∈ (escapeText awkwardText).toList ∧ isPrintable '7' = true ∧ ¬IsControl '7' := by
  have hwritten : (escapeText awkwardText).toList
      = ['\\', '\\', '\\'] ++ '\x22' :: "\\uDB40\\uDC01\\u0007".toList := by
    decide +kernel
  have hmem : '7' ∈ (escapeText awkwardText).toList := by decide +kernel
  obtain ⟨hread, hquotes, hshown, -⟩ := escapeText_sealed awkwardText
  exact ⟨hread, hwritten, hquotes _ _ hwritten, hmem, hshown _ hmem⟩

end Staging.Json
