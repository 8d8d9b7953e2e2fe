import Mathlib.Data.List.Induction
import Staging.Json.Pointer
import Staging.Proofs.Json.Numeral

/-!
# Following pointers

A pointer is read as the names and numbers of the steps it takes. Escapes keep the steps apart
whatever the names are, so pointers are read back as the steps they were made of, and no other text
is read so (`tokens?_eq_some_iff`): a place has one pointer, and a pointer leads to one place. Nor
can a pointer go on from another one unless its steps do (`prefix_of_stepsText`).
-/

namespace Staging.Json

/-! ## Reading pointers -/

/-- What an escaped token stands for. Both escapes are read at once, so that what comes of one is
not taken for the start of another; a tilde that begins none of them may not stand in a token. -/
def unescape? : List Char → Option (List Char)
  | [] => some []
  | '~' :: '0' :: s => (unescape? s).map ('~' :: ·)
  | '~' :: '1' :: s => (unescape? s).map ('/' :: ·)
  | c :: s => if c = '~' ∨ c = '/' then none else (unescape? s).map (c :: ·)

/-- The tokens of a pointer, in the order of the steps down. -/
def tokens? (pointer : String) : Option (List String) :=
  match pointer.toList with
  | [] => some []
  | '/' :: s => (s.splitOn '/').mapM fun token => (unescape? token).map String.ofList
  | _ => none

/-- The number of an item that a token names: decimal digits, with no zero in front. -/
def itemNumber? : List Char → Option Nat
  | [] => none
  | ['0'] => some 0
  | c :: s =>
    if c ≠ '0' ∧ (c :: s).all Char.isDigit then some (Nat.ofDigitChars 10 (c :: s) 0) else none

/-- The member or the item that a token names. -/
def child? (v : Json) (token : String) : Option Json :=
  match v with
  | .obj members => Members.get? members token
  | .arr items => (itemNumber? token.toList).bind fun n => items[n]?
  | _ => none

/-- What lies at the end of a way down. -/
def follow? (v : Json) (path : List String) : Option Json := path.foldlM child? v

/-- What a pointer leads to. -/
def resolve? (v : Json) (pointer : String) : Option Json := (tokens? pointer).bind v.follow?

/-! ## Making pointers -/

/-- The pointer that goes on from another one. -/
def pointerBelow (pointer : String) (path : List String) : String :=
  path.foldl (fun pointer token => stepDown pointer (memberToken token)) pointer

theorem toList_memberToken (name : String) :
    (memberToken name).toList = name.toList.flatMap tokenChar := by
  rw [memberToken, String.toList_ofList]

/-- The text of a way down, as it stands in a pointer. -/
def stepsText (path : List String) : List Char :=
  path.flatMap fun token => '/' :: token.toList.flatMap tokenChar

theorem stepsText_cons (token : String) (path : List String) :
    stepsText (token :: path) = '/' :: (token.toList.flatMap tokenChar ++ stepsText path) :=
  List.flatMap_cons

theorem stepsText_append (path path' : List String) :
    stepsText (path ++ path') = stepsText path ++ stepsText path' :=
  List.flatMap_append

theorem toList_pointerBelow (pointer : String) (path : List String) :
    (pointerBelow pointer path).toList = pointer.toList ++ stepsText path := by
  induction path generalizing pointer with
  | nil => exact (List.append_nil _).symm
  | cons token path ih =>
      rw [pointerBelow, List.foldl_cons]
      refine (ih _).trans ?_
      rw [stepDown, String.toList_append, String.toList_append, toList_memberToken, stepsText_cons]
      simp only [List.append_assoc]
      rfl

theorem toList_pointer (path : List String) : (pointerBelow "" path).toList = stepsText path := by
  rw [toList_pointerBelow, String.toList_empty, List.nil_append]

/-! ## Tokens are read back -/

theorem unescape?_verbatim {c : Char} (htilde : c ≠ '~') (hslash : c ≠ '/') (s : List Char) :
    unescape? (c :: s) = (unescape? s).map (c :: ·) := by
  rw [unescape?, if_neg (not_or.mpr ⟨htilde, hslash⟩)]
  · exact fun _ heq => absurd heq htilde
  · exact fun _ heq => absurd heq htilde

theorem unescape?_escaped (s : List Char) : unescape? (s.flatMap tokenChar) = some s := by
  induction s with
  | nil => rfl
  | cons c s ih =>
      rw [List.flatMap_cons, tokenChar]
      by_cases htilde : c = '~'
      · subst htilde
        rw [if_pos rfl, List.cons_append, List.singleton_append, unescape?, ih]
        rfl
      by_cases hslash : c = '/'
      · subst hslash
        rw [if_neg htilde, if_pos rfl, List.cons_append, List.singleton_append, unescape?, ih]
        rfl
      · rw [if_neg htilde, if_neg hslash, List.singleton_append, unescape?_verbatim htilde hslash,
          ih]
        rfl

theorem eq_escaped_of_unescape? {s name : List Char} (h : unescape? s = some name) :
    s = name.flatMap tokenChar := by
  fun_induction unescape? s generalizing name with
  | case1 =>
      obtain rfl := Option.some.inj h
      rfl
  | case2 s ih =>
      obtain ⟨name, hs, rfl⟩ := Option.map_eq_some_iff.mp h
      rw [List.flatMap_cons, ← ih hs]
      rfl
  | case3 s ih =>
      obtain ⟨name, hs, rfl⟩ := Option.map_eq_some_iff.mp h
      rw [List.flatMap_cons, ← ih hs]
      rfl
  | case4 => cases h
  | case5 c s _ _ hc ih =>
      obtain ⟨name, hs, rfl⟩ := Option.map_eq_some_iff.mp h
      obtain ⟨htilde, hslash⟩ := not_or.mp hc
      rw [List.flatMap_cons, ← ih hs, tokenChar, if_neg htilde, if_neg hslash]
      rfl

/-- A token is read just if it is the escaped name. -/
theorem readToken_eq_some_iff {token : List Char} {name : String} :
    (unescape? token).map String.ofList = some name ↔ token = name.toList.flatMap tokenChar := by
  rw [Option.map_eq_some_iff]
  constructor
  · rintro ⟨chars, hchars, rfl⟩
    rw [String.toList_ofList]
    exact eq_escaped_of_unescape? hchars
  · rintro rfl
    exact ⟨name.toList, unescape?_escaped _, String.ofList_toList⟩

theorem slash_not_mem_escaped (s : List Char) : '/' ∉ s.flatMap tokenChar := by
  rw [List.mem_flatMap]
  rintro ⟨c, -, hc⟩
  rw [tokenChar] at hc
  split at hc
  · revert hc
    decide
  · split at hc
    · revert hc
      decide
    · rename_i hslash
      exact hslash (List.mem_singleton.mp hc).symm

/-! ## Pointers are read back -/

theorem mapM_eq_some_iff {α β : Type} {f : α → Option β} {g : β → α}
    (h : ∀ a b, f a = some b ↔ a = g b) {as : List α} {bs : List β} :
    as.mapM f = some bs ↔ as = bs.map g := by
  induction as generalizing bs with
  | nil => cases bs <;> simp
  | cons a as ih =>
      cases bs with
      | nil => cases hf : f a <;> cases hmore : as.mapM f <;> simp [List.mapM_cons, hf, hmore]
      | cons b bs =>
          rw [List.map_cons, List.cons.injEq, ← h, ← ih]
          cases hf : f a <;> cases hmore : as.mapM f <;> simp [List.mapM_cons, hf, hmore]

/-- Tokens with a slash before each of them are tokens with slashes between them, and one in
front. -/
theorem slash_intercalate {tokens : List (List Char)} (hne : tokens ≠ []) :
    '/' :: ['/'].intercalate tokens = tokens.flatMap ('/' :: ·) := by
  induction tokens with
  | nil => exact absurd rfl hne
  | cons token tokens ih =>
      cases tokens with
      | nil => simp [List.intercalate]
      | cons next tokens =>
          rw [List.intercalate_cons_cons, List.flatMap_cons, ← ih (List.cons_ne_nil _ _)]
          simp

/-- Tokens between slashes are those of a way down of at least one step. -/
theorem readTokens_eq_some_iff {s : List Char} {path : List String} :
    ((s.splitOn '/').mapM fun token => (unescape? token).map String.ofList) = some path ↔
      path ≠ [] ∧ '/' :: s = stepsText path := by
  rw [mapM_eq_some_iff fun _ _ => readToken_eq_some_iff]
  have htext : stepsText path
      = (path.map fun name => name.toList.flatMap tokenChar).flatMap ('/' :: ·) :=
    (List.flatMap_map ..).symm
  rw [htext]
  constructor
  · intro hs
    have hne : (path.map fun name => name.toList.flatMap tokenChar) ≠ [] :=
      hs ▸ List.splitOn_ne_nil '/' s
    rw [← slash_intercalate hne, ← hs, List.intercalate_splitOn]
    exact ⟨fun hnil => hne (by rw [hnil]; rfl), rfl⟩
  · rintro ⟨hpath, hs⟩
    have hne : (path.map fun name => name.toList.flatMap tokenChar) ≠ [] :=
      fun hnil => hpath (List.map_eq_nil_iff.mp hnil)
    rw [← slash_intercalate hne] at hs
    rw [(List.cons.inj hs).2, List.splitOn_intercalate '/' _ hne]
    intro token htoken
    obtain ⟨name, -, rfl⟩ := List.mem_map.mp htoken
    exact slash_not_mem_escaped _

/-- A pointer is read as a way down just if it was made of it. -/
theorem tokens?_eq_some_iff {pointer : String} {path : List String} :
    tokens? pointer = some path ↔ pointer = pointerBelow "" path := by
  rw [← String.toList_inj, toList_pointer, tokens?]
  split
  · rename_i hnil
    rw [hnil, Option.some.injEq]
    cases path with
    | nil => simp [stepsText]
    | cons name path => simp [stepsText]
  · rename_i s hs
    rw [hs, readTokens_eq_some_iff]
    constructor
    · exact fun h => h.2
    · intro h
      refine ⟨?_, h⟩
      rintro rfl
      cases h
  · rename_i hnil hslash
    constructor
    · intro h
      cases h
    · intro h
      cases path with
      | nil => exact absurd h hnil
      | cons name path => exact absurd h (hslash _)

/-! ## Numbers are read back -/

theorem digitValue_lt {c : Char} (h : c.isDigit = true) : c.toNat - '0'.toNat < 10 := by
  have hnine : '9'.toNat = '0'.toNat + 9 := rfl
  have hhigh := (Char.isDigit_iff_toNat.mp h).2
  omega

theorem toDigits_digit {c : Char} (h : c.isDigit = true) :
    Nat.toDigits 10 (c.toNat - '0'.toNat) = [c] := by
  have hdigit : ∀ n : Fin 10, Nat.digitChar n.val = Char.ofNat ('0'.toNat + n.val) := by decide
  have hlow := (Char.isDigit_iff_toNat.mp h).1
  have hsum : '0'.toNat + (c.toNat - '0'.toNat) = c.toNat := by omega
  rw [Nat.toDigits_of_lt_base (digitValue_lt h), hdigit ⟨_, digitValue_lt h⟩, hsum,
    Char.ofNat_toNat]

/-- Digits with no zero in front are the numeral of their number. -/
theorem toDigits_ofDigitChars {s : List Char} (hne : s ≠ []) (hdigits : ∀ c ∈ s, c.isDigit = true)
    (hzero : s.head? ≠ some '0') : Nat.toDigits 10 (Nat.ofDigitChars 10 s 0) = s := by
  induction s using List.reverseRecOn with
  | nil => exact absurd rfl hne
  | append_singleton s c ih =>
      have hc := hdigits c (List.mem_append_right _ List.mem_cons_self)
      rw [Nat.ofDigitChars_append, Nat.ofDigitChars_cons, Nat.ofDigitChars_nil]
      cases s with
      | nil => simpa [Nat.ofDigitChars] using toDigits_digit hc
      | cons d s =>
          have hrest := ih (List.cons_ne_nil d s)
            (fun c hc => hdigits c (List.mem_append_left _ hc)) hzero
          have hpos : 0 < Nat.ofDigitChars 10 (d :: s) 0 := by
            refine Nat.pos_of_ne_zero fun hnone => hzero ?_
            rw [hnone, Nat.toDigits_zero] at hrest
            rw [List.head?_append, ← hrest]
            rfl
          rw [← Nat.toDigits_append_toDigits (by decide) hpos (digitValue_lt hc), hrest,
            toDigits_digit hc]

/-- A token is the number of an item just if it is its numeral. -/
theorem itemNumber?_eq_some_iff {s : List Char} {n : Nat} :
    itemNumber? s = some n ↔ s = Nat.toDigits 10 n := by
  constructor
  · intro h
    rw [itemNumber?.eq_def] at h
    split at h
    · cases h
    · obtain rfl := Option.some.inj h
      rfl
    · split at h
      · rename_i c s _ hs
        obtain rfl := Option.some.inj h
        have hdigits : ∀ d ∈ c :: s, d.isDigit = true := List.all_eq_true.mp hs.2
        have hzero : (c :: s).head? ≠ some '0' := fun heq => hs.1 (Option.some.inj heq)
        exact (toDigits_ofDigitChars (List.cons_ne_nil c s) hdigits hzero).symm
      · cases h
  · rintro rfl
    rcases Nat.eq_zero_or_pos n with rfl | hn
    · rfl
    · obtain ⟨c, s, hs⟩ := List.exists_cons_of_ne_nil (Nat.toDigits_ne_nil (n := n) (b := 10))
      have hzero := toDigits_head n hn
      have hdigits := toDigits_isDigit n
      have hvalue : Nat.ofDigitChars 10 (Nat.toDigits 10 n) 0 = n := Nat.ofDigitChars_ten_toDigits
      rw [hs] at hzero hdigits hvalue ⊢
      have hc : c ≠ '0' := fun heq => hzero (congrArg some heq)
      rw [itemNumber?, if_pos ⟨hc, List.all_eq_true.mpr hdigits⟩, hvalue]
      exact fun heq => absurd heq hc

/-- The number of an item is escaped as it is. -/
theorem memberToken_itemToken (n : Nat) : memberToken (itemToken n) = itemToken n := by
  have hverbatim : ∀ c ∈ Nat.toDigits 10 n, tokenChar c = [c] := by
    intro c hc
    have hdigit := toDigits_isDigit n c hc
    have htilde : c ≠ '~' := fun heq => absurd (heq ▸ hdigit) (by decide)
    have hslash : c ≠ '/' := fun heq => absurd (heq ▸ hdigit) (by decide)
    rw [tokenChar, if_neg htilde, if_neg hslash]
  rw [memberToken, itemToken, String.toList_ofList, List.flatMap_def,
    List.map_congr_left hverbatim, ← List.flatMap_def, List.flatMap_singleton']

/-! ## Places -/

theorem pointerBelow_injective {path path' : List String}
    (h : pointerBelow "" path = pointerBelow "" path') : path = path' := by
  have hpath := tokens?_eq_some_iff.mpr (rfl : pointerBelow "" path = _)
  rw [h, tokens?_eq_some_iff.mpr rfl] at hpath
  exact (Option.some.inj hpath).symm

theorem resolve?_eq_some_iff {v w : Json} {pointer : String} : v.resolve? pointer = some w ↔
    ∃ path, pointer = pointerBelow "" path ∧ v.follow? path = some w := by
  rw [resolve?, Option.bind_eq_some_iff]
  simp only [tokens?_eq_some_iff]

theorem child?_arr_eq_some_iff {items : List Json} {token : String} {w : Json} :
    (Json.arr items).child? token = some w ↔ ∃ n, token = itemToken n ∧ items[n]? = some w := by
  have htoken : ∀ n, token.toList = Nat.toDigits 10 n ↔ token = itemToken n := by
    intro n
    rw [itemToken, ← String.toList_inj, String.toList_ofList]
  rw [child?, Option.bind_eq_some_iff]
  simp only [itemNumber?_eq_some_iff, htoken]

theorem follow?_cons (v : Json) (token : String) (path : List String) :
    v.follow? (token :: path) = (v.child? token).bind (·.follow? path) := List.foldlM_cons

/-! ## Ways that go on -/

/-- A segment ends at the first slash. -/
theorem segment_eq {a b more rest : List Char} (ha : '/' ∉ a) (hb : '/' ∉ b)
    (hmore : more = [] ∨ more.head? = some '/') (hrest : rest = [] ∨ rest.head? = some '/')
    (h : a ++ more = b ++ rest) : a = b ∧ more = rest := by
  -- what one segment has over the other would begin with the slash that ends the other
  have hnone : ∀ {extra tail text : List Char}, tail = extra ++ text → '/' ∉ extra →
      (tail = [] ∨ tail.head? = some '/') → extra = [] := by
    intro extra tail text htail hextra hslash
    cases extra with
    | nil => rfl
    | cons c extra =>
        rw [htail] at hslash
        rcases hslash with hnil | hhead
        · cases hnil
        · obtain rfl := Option.some.inj hhead
          exact absurd List.mem_cons_self hextra
  rcases List.append_eq_append_iff.mp h with ⟨extra, rfl, htail⟩ | ⟨extra, rfl, htail⟩
  · obtain rfl := hnone htail (fun hc => hb (List.mem_append_right a hc)) hmore
    exact ⟨(List.append_nil a).symm, htail⟩
  · obtain rfl := hnone htail (fun hc => ha (List.mem_append_right b hc)) hrest
    exact ⟨List.append_nil b, htail.symm⟩

theorem stepsText_head? (path : List String) :
    stepsText path = [] ∨ (stepsText path).head? = some '/' := by
  cases path with
  | nil => exact .inl rfl
  | cons token path => exact .inr rfl

theorem escaped_injective {name name' : String}
    (h : name.toList.flatMap tokenChar = name'.toList.flatMap tokenChar) : name = name' := by
  have hread := unescape?_escaped name.toList
  rw [h, unescape?_escaped] at hread
  exact (String.toList_inj.mp (Option.some.inj hread)).symm

/-- Text that goes on with a slash goes on with a step. -/
theorem prefix_of_stepsText {above path : List String} {text : List Char}
    (h : stepsText path = stepsText above ++ '/' :: text) : above <+: path := by
  induction above generalizing path with
  | nil => exact List.nil_prefix
  | cons token above ih =>
      cases path with
      | nil => cases h
      | cons name path =>
          rw [stepsText_cons, stepsText_cons, List.cons_append, List.append_assoc] at h
          have htext : (stepsText above ++ '/' :: text).head? = some '/' := by
            rcases stepsText_head? above with hnil | hhead
            · rw [hnil]
              rfl
            · rw [List.head?_append, hhead]
              rfl
          obtain ⟨hname, hpath⟩ := segment_eq (slash_not_mem_escaped _) (slash_not_mem_escaped _)
            (stepsText_head? path) (.inr htext) (List.cons.inj h).2
          rw [escaped_injective hname, List.prefix_cons_inj]
          exact ih hpath

end Staging.Json
