import Staging.Proofs.Json.Members
import Staging.Proofs.Json.Numeral
import Staging.Proofs.Json.Strings

/-!
# What is written is read back

A value whose numbers are in range is read back from its text, in every layout that writes nothing
but blanks beside the punctuation; only repeated member names are settled (`parse_render`). The
reader's steps are counted in the lengths of the texts: two for each character are enough.
-/

namespace Staging.Json

/-! ## Values that can be written -/

/-- The integers of 64 bits. -/
def isSmall (n : Int) : Bool :=
  decide (-9223372036854775808 ≤ n) && decide (n ≤ 9223372036854775807)

mutual

/-- Whether every integer has 64 bits and every double is finite. -/
def inRange : Json → Bool
  | .int n => isSmall n
  | .float x => x.isFinite
  | .arr items => itemsInRange items
  | .obj members => membersInRange members
  | _ => true

def itemsInRange : List Json → Bool
  | [] => true
  | v :: items => inRange v && itemsInRange items

def membersInRange : List (String × Json) → Bool
  | [] => true
  | (_, v) :: members => inRange v && membersInRange members

end

mutual

/-- The value with the repeated names of every object settled. -/
def settled : Json → Json
  | .arr items => .arr (settledItems items)
  | .obj members => .obj (Members.settle (settledMembers members))
  | v => v

def settledItems : List Json → List Json
  | [] => []
  | v :: items => settled v :: settledItems items

def settledMembers : List (String × Json) → List (String × Json)
  | [] => []
  | (name, v) :: members => (name, settled v) :: settledMembers members

end

theorem natAbs_of_isSmall {n : Int} (h : isSmall n = true) : n.natAbs ≤ Nat.pow 2 63 := by
  rw [isSmall, Bool.and_eq_true, decide_eq_true_eq, decide_eq_true_eq] at h
  have : Nat.pow 2 63 = 9223372036854775808 := by decide
  omega

/-! ## Blanks -/

/-- A text that does not begin with a blank. -/
def Begins (s : List Char) : Prop := ∀ c ∈ s.head?, isSpace c = false

theorem begins_cons {c : Char} {s : List Char} (h : isSpace c = false) : Begins (c :: s) := by
  intro c' hc'
  obtain rfl := Option.some.inj hc'
  exact h

theorem skipSpace_of_begins {s : List Char} (h : Begins s) : skipSpace s = s := by
  cases s with
  | nil => rfl
  | cons c t => rw [skipSpace, List.dropWhile_cons, h c rfl]; rfl

theorem skipSpace_blanks {blanks s : List Char} (h : ∀ c ∈ blanks, isSpace c = true) :
    skipSpace (blanks ++ s) = skipSpace s :=
  List.dropWhile_append_of_pos h

/-- Layouts that write nothing but blanks beside the punctuation. -/
structure Layout.Readable (l : Layout) : Prop where
  comma : ∃ blanks, l.comma = ',' :: blanks ∧ ∀ c ∈ blanks, isSpace c = true
  colon : ∃ blanks, l.colon = ':' :: blanks ∧ ∀ c ∈ blanks, isSpace c = true
  escape : Json.Readable l.escape

theorem readable_compact : Layout.compact.Readable :=
  ⟨⟨[], rfl, List.forall_mem_nil _⟩, ⟨[], rfl, List.forall_mem_nil _⟩, readable_escapeControl⟩

theorem readable_pretty : Layout.pretty.Readable :=
  ⟨⟨[], rfl, List.forall_mem_nil _⟩, ⟨[' '], rfl, List.all_eq_true.mp (by decide)⟩,
    readable_escapeControl⟩

theorem lineBreak_blank (l : Layout) (depth : Nat) :
    ∀ c ∈ l.lineBreak depth, isSpace c = true := by
  intro c hc
  rw [Layout.lineBreak] at hc
  split at hc
  · exact absurd hc List.not_mem_nil
  · rcases List.mem_cons.mp hc with rfl | hspace
    · decide
    · obtain rfl := (List.mem_replicate.mp hspace).2
      decide

theorem skipSpace_lineBreak (l : Layout) (depth : Nat) {s : List Char} (h : Begins s) :
    skipSpace (l.lineBreak depth ++ s) = s := by
  rw [skipSpace_blanks (lineBreak_blank l depth), skipSpace_of_begins h]

theorem endsNumeral_cons {c : Char} {s : List Char} (hdigit : c.isDigit = false)
    (hmark : c ≠ '.' ∧ c ≠ 'e' ∧ c ≠ 'E') : EndsNumeral (c :: s) := by
  intro c' hc'
  obtain rfl := Option.some.inj hc'
  exact ⟨hdigit, hmark⟩

/-- What closes a container, on a new line or not, ends a numeral before it. -/
theorem endsNumeral_lineBreak (l : Layout) (depth : Nat) {s : List Char} (h : EndsNumeral s) :
    EndsNumeral (l.lineBreak depth ++ s) := by
  rw [Layout.lineBreak]
  split
  · exact h
  · exact endsNumeral_cons (by decide) (by decide)

/-! ## First characters -/

variable {l : Layout}

/-- The texts of values that the reader does not take for a container, a string or the end of an
array begin like this. -/
structure Bare (c : Char) : Prop where
  notSpace : isSpace c = false
  notBracket : c ≠ '[' ∧ c ≠ ']'
  notBrace : c ≠ '\x7b'
  notQuote : c ≠ '\x22'
  notMark : c ≠ '\ufeff'

theorem bare_of_numeral {c : Char} (h : c = '-' ∨ c.isDigit = true) : Bare c := by
  rcases h with rfl | h
  · exact ⟨by decide, by decide, by decide, by decide, by decide⟩
  · have hne : ∀ c' : Char, c'.isDigit = false → c ≠ c' := by
      rintro c' hc' rfl
      exact absurd h (by rw [hc']; exact Bool.false_ne_true)
    refine ⟨?_, ⟨hne _ (by decide), hne _ (by decide)⟩, hne _ (by decide), hne _ (by decide),
      hne _ (by decide)⟩
    simp only [isSpace, Bool.or_eq_false_iff, beq_eq_false_iff_ne]
    exact ⟨⟨⟨hne _ (by decide), hne _ (by decide)⟩, hne _ (by decide)⟩, hne _ (by decide)⟩

theorem value_scalar {steps : Nat} {c : Char} {t : List Char} (h : Bare c) :
    value (steps + 1) (c :: t) = scalar (c :: t) := by
  rw [value.eq_def]
  split
  · rename_i heq
    cases heq
  · split
    · rename_i heq
      exact absurd (List.cons.inj heq).1 h.notQuote
    · rename_i heq
      exact absurd (List.cons.inj heq).1 h.notBracket.1
    · rename_i heq
      exact absurd (List.cons.inj heq).1 h.notBrace
    · rfl

/-- What the text of a value begins with: no blank, no byte order mark, and nothing that closes an
array. -/
theorem chars_head (l : Layout) (depth : Nat) {v : Json} (hv : v.inRange = true) :
    ∃ c t, chars l depth v = c :: t ∧ isSpace c = false ∧ c ≠ ']' ∧ c ≠ '\ufeff' := by
  cases v with
  | null => exact ⟨_, _, rfl, by decide, by decide, by decide⟩
  | bool b => cases b <;> exact ⟨_, _, rfl, by decide, by decide, by decide⟩
  | int n =>
      obtain ⟨c, t, h, hc⟩ := intChars_head n
      exact ⟨c, t, h, (bare_of_numeral hc).notSpace, (bare_of_numeral hc).notBracket.2,
        (bare_of_numeral hc).notMark⟩
  | float x =>
      obtain ⟨c, t, h, hc⟩ := doubleChars_head .json hv
      exact ⟨c, t, h, (bare_of_numeral hc).notSpace, (bare_of_numeral hc).notBracket.2,
        (bare_of_numeral hc).notMark⟩
  | str s => exact ⟨_, _, rfl, by decide, by decide, by decide⟩
  | arr items => cases items <;> exact ⟨_, _, rfl, by decide, by decide, by decide⟩
  | obj members => cases members <;> exact ⟨_, _, rfl, by decide, by decide, by decide⟩

/-! ## Parts -/

theorem memberName_stringChars (hl : l.Readable) (name : String) (rest : List Char) :
    memberName (stringChars l name ++ rest) = .ok (name, rest) := by
  have hread := stringBody_flatMap hl.escape
    ('\x22' :: (name.toList.flatMap l.escape ++ '\x22' :: rest)) rest name.toList
  rw [stringChars, List.cons_append, List.cons_append, List.append_assoc, List.singleton_append,
    memberName, hread]
  simp only [bind, Except.bind, pure, Except.pure, String.ofList_toList]

theorem value_stringChars (hl : l.Readable) (steps : Nat) (s : String) (rest : List Char) :
    value (steps + 1) (stringChars l s ++ rest) = .ok (.str s, rest) := by
  have hread := stringBody_flatMap hl.escape
    ('\x22' :: (s.toList.flatMap l.escape ++ '\x22' :: rest)) rest s.toList
  rw [stringChars, List.cons_append, List.cons_append, List.append_assoc, List.singleton_append,
    value, hread]
  simp only [bind, Except.bind, pure, Except.pure, String.ofList_toList]

theorem colon_read (hl : l.Readable) {rest : List Char} (hrest : Begins rest) :
    colon (l.colon ++ rest) = .ok rest := by
  obtain ⟨blanks, hcolon, hblank⟩ := hl.colon
  rw [hcolon, colon, List.cons_append, skipSpace_of_begins (begins_cons (by decide))]
  simp only [skipSpace_blanks hblank, skipSpace_of_begins hrest]

theorem elements_last {steps : Nat} {s rest tail : List Char} {v : Json}
    (hv : value steps s = .ok (v, rest)) (hclose : skipSpace rest = ']' :: tail) :
    elements (steps + 1) s = .ok ([v], tail) := by
  rw [elements, hv]
  simp only [bind, Except.bind, hclose, pure, Except.pure]

theorem elements_more {steps : Nat} {s rest tail after : List Char} {v : Json} {items : List Json}
    (hv : value steps s = .ok (v, rest)) (hcomma : skipSpace rest = ',' :: tail)
    (hmore : elements steps (skipSpace tail) = .ok (items, after)) :
    elements (steps + 1) s = .ok (v :: items, after) := by
  rw [elements, hv]
  simp only [bind, Except.bind, hcomma, hmore, pure, Except.pure]

theorem members_last {steps : Nat} {s named body rest tail : List Char} {name : String} {v : Json}
    (hname : memberName s = .ok (name, named)) (hcolon : colon named = .ok body)
    (hv : value steps body = .ok (v, rest)) (hclose : skipSpace rest = '\x7d' :: tail) :
    members (steps + 1) s = .ok ([(name, v)], tail) := by
  rw [members, hname]
  simp only [bind, Except.bind, hcolon, hv, hclose, pure, Except.pure]

theorem members_more {steps : Nat} {s named body rest tail after : List Char} {name : String}
    {v : Json} {pairs : List (String × Json)} (hname : memberName s = .ok (name, named))
    (hcolon : colon named = .ok body) (hv : value steps body = .ok (v, rest))
    (hcomma : skipSpace rest = ',' :: tail)
    (hmore : members steps (skipSpace tail) = .ok (pairs, after)) :
    members (steps + 1) s = .ok ((name, v) :: pairs, after) := by
  rw [members, hname]
  simp only [bind, Except.bind, hcolon, hv, hcomma, hmore, pure, Except.pure]

theorem value_array {steps : Nat} {body tail : List Char} {c : Char} {t : List Char}
    {items : List Json} (hbody : skipSpace body = c :: t) (hc : c ≠ ']')
    (hread : elements steps (c :: t) = .ok (items, tail)) :
    value (steps + 1) ('[' :: body) = .ok (.arr items, tail) := by
  rw [value, hbody]
  split
  · rename_i heq
    exact absurd (List.cons.inj heq).1 hc
  · simp only [hread, bind, Except.bind, pure, Except.pure]

theorem value_object {steps : Nat} {body tail : List Char} {c : Char} {t : List Char}
    {pairs : List (String × Json)} (hbody : skipSpace body = c :: t) (hc : c ≠ '\x7d')
    (hread : members steps (c :: t) = .ok (pairs, tail)) :
    value (steps + 1) ('\x7b' :: body) = .ok (.obj (Members.ofPairs pairs), tail) := by
  rw [value, hbody]
  split
  · rename_i heq
    exact absurd (List.cons.inj heq).1 hc
  · simp only [hread, bind, Except.bind, pure, Except.pure]

/-! ## Whole values -/

/-- The value is read back from its text, whatever follows it. -/
def ReadBack (l : Layout) (v : Json) : Prop :=
  ∀ (depth steps : Nat) (rest : List Char), 2 * (chars l depth v).length ≤ steps →
    EndsNumeral rest → value steps (chars l depth v ++ rest) = .ok (v.settled, rest)

theorem readBack_bare {v : Json} (hsettled : v.settled = v)
    (hhead : ∀ depth, ∃ c t, chars l depth v = c :: t ∧ Bare c)
    (hread : ∀ depth rest, EndsNumeral rest → scalar (chars l depth v ++ rest) = .ok (v, rest)) :
    ReadBack l v := by
  intro depth steps rest hsteps hrest
  obtain ⟨c, t, hct, hc⟩ := hhead depth
  have hscalar := hread depth rest hrest
  rw [hct, List.length_cons] at hsteps
  obtain ⟨steps, rfl⟩ : ∃ k, steps = k + 1 := ⟨steps - 1, by omega⟩
  rw [hct, List.cons_append] at hscalar ⊢
  rw [value_scalar hc, hscalar, hsettled]

theorem itemsChars_ends (l : Layout) (hl : l.Readable) (depth outer : Nat) (items : List Json)
    (rest : List Char) :
    EndsNumeral (itemsChars l depth items ++ (l.lineBreak outer ++ ']' :: rest)) := by
  cases items with
  | nil => exact endsNumeral_lineBreak l outer (endsNumeral_cons (by decide) (by decide))
  | cons v more =>
      obtain ⟨blanks, hcomma, -⟩ := hl.comma
      rw [itemsChars, hcomma]
      exact endsNumeral_cons (by decide) (by decide)

theorem membersChars_ends (l : Layout) (hl : l.Readable) (depth outer : Nat)
    (more : List (String × Json)) (rest : List Char) :
    EndsNumeral (membersChars l depth more ++ (l.lineBreak outer ++ '\x7d' :: rest)) := by
  cases more with
  | nil => exact endsNumeral_lineBreak l outer (endsNumeral_cons (by decide) (by decide))
  | cons v more =>
      obtain ⟨blanks, hcomma, -⟩ := hl.comma
      rw [membersChars, hcomma]
      exact endsNumeral_cons (by decide) (by decide)

theorem begins_chars {depth : Nat} {v : Json} (hv : v.inRange = true) (rest : List Char) :
    Begins (chars l depth v ++ rest) := by
  obtain ⟨c, t, hct, hspace, -⟩ := chars_head l depth hv
  rw [hct]
  exact begins_cons hspace

theorem begins_stringChars (name : String) (rest : List Char) :
    Begins (stringChars l name ++ rest) := begins_cons (by decide)

theorem comma_pos (hl : l.Readable) : 0 < l.comma.length := by
  obtain ⟨blanks, hcomma, -⟩ := hl.comma
  rw [hcomma]
  exact Nat.succ_pos _

theorem comma_read (hl : l.Readable) (depth : Nat) {s : List Char} (hs : Begins s) :
    ∃ tail, l.comma ++ (l.lineBreak depth ++ s) = ',' :: tail ∧ skipSpace tail = s := by
  obtain ⟨blanks, hcomma, hblank⟩ := hl.comma
  refine ⟨blanks ++ (l.lineBreak depth ++ s), by rw [hcomma]; rfl, ?_⟩
  rw [skipSpace_blanks hblank, skipSpace_lineBreak l depth hs]

mutual

theorem readBack (hl : l.Readable) : ∀ v : Json, v.inRange = true → ReadBack l v
  | .null, _ =>
    readBack_bare rfl (fun _ => ⟨_, _, rfl, by decide, by decide, by decide, by decide, by decide⟩)
      fun _ _ _ => rfl
  | .bool true, _ =>
    readBack_bare rfl (fun _ => ⟨_, _, rfl, by decide, by decide, by decide, by decide, by decide⟩)
      fun _ _ _ => rfl
  | .bool false, _ =>
    readBack_bare rfl (fun _ => ⟨_, _, rfl, by decide, by decide, by decide, by decide, by decide⟩)
      fun _ _ _ => rfl
  | .int n, h => by
    obtain ⟨c, t, hct, hc⟩ := intChars_head n
    exact readBack_bare rfl (fun _ => ⟨c, t, hct, bare_of_numeral hc⟩)
      fun _ _ hrest => scalar_intChars (natAbs_of_isSmall h) hrest
  | .float x, h => by
    obtain ⟨c, t, hct, hc⟩ := doubleChars_head .json h
    exact readBack_bare rfl (fun _ => ⟨c, t, hct, bare_of_numeral hc⟩)
      fun _ _ hrest => scalar_doubleChars h hrest
  | .str s, _ => by
    intro depth steps rest hsteps _
    have hlen : 0 < (chars l depth (.str s)).length := Nat.succ_pos _
    obtain ⟨steps, rfl⟩ : ∃ k, steps = k + 1 := ⟨steps - 1, by omega⟩
    exact value_stringChars hl steps s rest
  | .arr [], _ => by
    intro depth steps rest hsteps _
    obtain ⟨steps, rfl⟩ : ∃ k, steps = k + 1 :=
      ⟨steps - 1, by simp only [chars, List.length_cons] at hsteps; omega⟩
    rfl
  | .arr (v :: items), h => by
    rw [inRange, itemsInRange, Bool.and_eq_true] at h
    intro depth steps rest hsteps _
    simp only [chars, List.length_append, List.length_cons, List.length_nil] at hsteps
    obtain ⟨steps, rfl⟩ : ∃ k, steps = k + 1 := ⟨steps - 1, by omega⟩
    have hread := elements_chars hl items h.2 v h.1 (readBack hl v h.1) (depth + 1) depth steps rest
      (by omega)
    obtain ⟨c, t, hct, hspace, hclose, -⟩ := chars_head l (depth + 1) h.1
    simp only [chars, List.cons_append, List.append_assoc, List.nil_append]
    rw [hct, List.cons_append] at hread ⊢
    exact value_array (skipSpace_lineBreak l _ (begins_cons hspace)) hclose hread
  | .obj [], _ => by
    intro depth steps rest hsteps _
    obtain ⟨steps, rfl⟩ : ∃ k, steps = k + 1 :=
      ⟨steps - 1, by simp only [chars, List.length_cons] at hsteps; omega⟩
    rfl
  | .obj ((name, v) :: more), h => by
    rw [inRange, membersInRange, Bool.and_eq_true] at h
    intro depth steps rest hsteps _
    simp only [chars, List.length_append, List.length_cons, List.length_nil] at hsteps
    obtain ⟨steps, rfl⟩ : ∃ k, steps = k + 1 := ⟨steps - 1, by omega⟩
    have hread := members_chars hl more h.2 name v h.1 (readBack hl v h.1) (depth + 1) depth steps
      rest (by omega)
    simp only [chars, List.cons_append, List.append_assoc, List.nil_append]
    rw [stringChars, List.cons_append, List.cons_append] at hread ⊢
    rw [value_object (skipSpace_lineBreak l _ (begins_cons (by decide))) (by decide) hread,
      Members.ofPairs_eq_settle]
    rfl

/-- The items of an array from one on, and the closing bracket. -/
theorem elements_chars (hl : l.Readable) : ∀ items : List Json, itemsInRange items = true →
    ∀ v : Json, v.inRange = true → ReadBack l v → ∀ (depth outer steps : Nat) (rest : List Char),
    2 * (chars l depth v).length + 2 * (itemsChars l depth items).length + 1 ≤ steps →
    elements steps (chars l depth v
      ++ (itemsChars l depth items ++ (l.lineBreak outer ++ ']' :: rest)))
        = .ok (v.settled :: settledItems items, rest)
  | [], _, v, hv, hback, depth, outer, steps, rest, hsteps => by
    obtain ⟨steps, rfl⟩ : ∃ k, steps = k + 1 := ⟨steps - 1, by omega⟩
    have hread := hback depth steps _ (by omega) (itemsChars_ends l hl depth outer [] rest)
    refine elements_last hread ?_
    rw [itemsChars, List.nil_append, skipSpace_lineBreak l _ (begins_cons (by decide))]
  | v' :: items, h, v, hv, hback, depth, outer, steps, rest, hsteps => by
    rw [itemsInRange, Bool.and_eq_true] at h
    obtain ⟨steps, rfl⟩ : ∃ k, steps = k + 1 := ⟨steps - 1, by omega⟩
    have hread := hback depth steps _ (by omega)
      (itemsChars_ends l hl depth outer (v' :: items) rest)
    have hpos := comma_pos hl
    simp only [itemsChars, List.length_append] at hsteps
    have hmore := elements_chars hl items h.2 v' h.1 (readBack hl v' h.1) depth outer steps rest
      (by omega)
    obtain ⟨tail, hcomma, htail⟩ := comma_read hl depth (begins_chars h.1
      (itemsChars l depth items ++ (l.lineBreak outer ++ ']' :: rest)))
    refine elements_more hread ?_ (htail ▸ hmore)
    simp only [itemsChars, List.append_assoc]
    rw [hcomma, skipSpace_of_begins (begins_cons (by decide))]

/-- The members of an object from one on, and the closing brace. -/
theorem members_chars (hl : l.Readable) : ∀ more : List (String × Json),
    membersInRange more = true → ∀ (name : String) (v : Json), v.inRange = true → ReadBack l v →
    ∀ (depth outer steps : Nat) (rest : List Char),
    2 * (chars l depth v).length + 2 * (membersChars l depth more).length + 1 ≤ steps →
    members steps (stringChars l name ++ (l.colon ++ (chars l depth v
      ++ (membersChars l depth more ++ (l.lineBreak outer ++ '\x7d' :: rest)))))
        = .ok ((name, v.settled) :: settledMembers more, rest)
  | [], _, name, v, hv, hback, depth, outer, steps, rest, hsteps => by
    obtain ⟨steps, rfl⟩ : ∃ k, steps = k + 1 := ⟨steps - 1, by omega⟩
    have hread := hback depth steps _ (by omega) (membersChars_ends l hl depth outer [] rest)
    refine members_last (memberName_stringChars hl name _) (colon_read hl (begins_chars hv _))
      hread ?_
    rw [membersChars, List.nil_append, skipSpace_lineBreak l _ (begins_cons (by decide))]
  | (name', v') :: more, h, name, v, hv, hback, depth, outer, steps, rest, hsteps => by
    rw [membersInRange, Bool.and_eq_true] at h
    obtain ⟨steps, rfl⟩ : ∃ k, steps = k + 1 := ⟨steps - 1, by omega⟩
    have hread := hback depth steps _ (by omega)
      (membersChars_ends l hl depth outer ((name', v') :: more) rest)
    have hpos := comma_pos hl
    simp only [membersChars, List.length_append] at hsteps
    have hmore := members_chars hl more h.2 name' v' h.1 (readBack hl v' h.1) depth outer steps rest
      (by omega)
    obtain ⟨tail, hcomma, htail⟩ := comma_read hl depth (begins_stringChars (l := l) name'
      (l.colon ++ (chars l depth v'
        ++ (membersChars l depth more ++ (l.lineBreak outer ++ '\x7d' :: rest)))))
    refine members_more (memberName_stringChars hl name _) (colon_read hl (begins_chars hv _)) hread
      ?_ (htail ▸ hmore)
    simp only [membersChars, List.append_assoc]
    rw [hcomma, skipSpace_of_begins (begins_cons (by decide))]

end

/-- A value in range is read back from its text, up to repeated names. -/
theorem parse_render (hl : l.Readable) {v : Json} (hv : v.inRange = true) :
    parse (v.render l) = .ok v.settled := by
  have hread := readBack hl v hv 0 (2 * (chars l 0 v).length + 2) [] (by omega)
    (fun _ h => by cases h)
  obtain ⟨c, t, hct, hspace, -, hmark⟩ := chars_head l 0 hv
  rw [List.append_nil] at hread
  rw [parse, render, String.toList_ofList, readText.eq_def]
  split
  · rename_i heq
    exact absurd (List.cons.inj (hct.symm.trans heq)).1 hmark
  · rw [skipSpace_of_begins (by rw [hct]; exact begins_cons hspace), hread]
    rfl

end Staging.Json
