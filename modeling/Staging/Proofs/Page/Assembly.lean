import Staging.Proofs.Page.Document

/-!
# Records put together from events

The assembly agrees with the tree: fed the events of a document, it delivers the records that the
document holds (`feedAll_document`). Outside a record it leaves no trace of a value that opens no
array of records (`feedAll_passed`); within one it appends exactly the value's text
(`feedAll_value`).
-/

namespace Staging.Page

open Json

namespace Assembly

/-- The items that events complete, and the assembly after them. -/
def feedAll (a : Assembly) : List Event → Except PageFault (List (Item String) × Assembly)
  | [] => .ok ([], a)
  | e :: rest =>
    match a.feed e with
    | .error fault => .error fault
    | .ok (b, item) => (feedAll b rest).map fun (items, c) => (item.toList ++ items, c)

variable {a b c : Assembly} {e : Event} {es fs : List Event} {is js : List (Item String)}

theorem feedAll_cons {item : Option (Item String)} (he : a.feed e = .ok (b, item))
    (hes : b.feedAll es = .ok (is, c)) : a.feedAll (e :: es) = .ok (item.toList ++ is, c) := by
  rw [feedAll, he]
  simp only [hes, Except.map]

/-- What it takes to feed a first event: it is no fault, and neither is any after it. -/
theorem feedAll_cons_ok (h : a.feedAll (e :: es) = .ok (is, c)) : ∃ b item js,
    a.feed e = .ok (b, item) ∧ b.feedAll es = .ok (js, c) ∧ is = item.toList ++ js := by
  rw [feedAll] at h
  cases he : a.feed e with
  | error fault => simp only [he] at h; cases h
  | ok p =>
      obtain ⟨b, item⟩ := p
      simp only [he] at h
      cases hb : b.feedAll es with
      | error fault => rw [hb] at h; cases h
      | ok q =>
          obtain ⟨js, d⟩ := q
          rw [hb] at h
          obtain ⟨rfl, rfl⟩ := Prod.mk.inj (Except.ok.inj h)
          exact ⟨b, item, js, rfl, hb, rfl⟩

theorem feedAll_append (hes : a.feedAll es = .ok (is, b)) (hfs : b.feedAll fs = .ok (js, c)) :
    a.feedAll (es ++ fs) = .ok (is ++ js, c) := by
  induction es generalizing a is with
  | nil =>
      obtain ⟨rfl, rfl⟩ := Prod.mk.inj (Except.ok.inj hes)
      exact hfs
  | cons e es ih =>
      obtain ⟨d, item, ks, he, hd, rfl⟩ := feedAll_cons_ok hes
      rw [List.cons_append, feedAll_cons he (ih hd), List.append_assoc]

/-- Events that are fed without a fault are so from any place between them. -/
theorem feedAll_append_ok (h : a.feedAll (es ++ fs) = .ok (is, c)) : ∃ js b ks,
    a.feedAll es = .ok (js, b) ∧ b.feedAll fs = .ok (ks, c) ∧ is = js ++ ks := by
  induction es generalizing a is with
  | nil => exact ⟨[], a, is, rfl, h, rfl⟩
  | cons e es ih =>
      obtain ⟨b, item, js, he, hb, rfl⟩ := feedAll_cons_ok h
      obtain ⟨js, d, ks, hes, hfs, rfl⟩ := ih hb
      exact ⟨_, d, ks, feedAll_cons he hes, hfs, (List.append_assoc _ _ _).symm⟩

theorem feedAll_silent (he : a.feed e = .ok (b, none)) : a.feedAll [e] = .ok ([], b) :=
  feedAll_cons he rfl

theorem feedAll_one {item : Option (Item String)} (he : a.feed e = .ok (b, item)) :
    a.feedAll [e] = .ok (item.toList, b) := by
  rw [feedAll_cons he rfl, List.append_nil]

/-- What is fed in one go is what a page delivers of it. -/
theorem itemsFrom_of_feedAll (h : a.feedAll es = .ok (is, b)) : itemsFrom a es = (is, none) := by
  induction es generalizing a is with
  | nil =>
      obtain ⟨rfl, rfl⟩ := Prod.mk.inj (Except.ok.inj h)
      rfl
  | cons e es ih =>
      obtain ⟨d, item, ks, he, hd, rfl⟩ := feedAll_cons_ok h
      rw [itemsFrom, he]
      simp only [ih hd]

/-! ## What is passed over -/

/-- No array or object that opens here, or deeper, is of interest. -/
def Passes (a : Assembly) : Prop :=
  0 < a.depth ∧ ((a.place = .inArray ∧ a.arrayDepth < a.depth) ∨ (a.place = .outside ∧ 1 < a.depth))

theorem Passes.deeper (h : a.Passes) : a.deeper.Passes := by
  have hdepth : a.deeper.depth = a.depth + 1 := rfl
  have harray : a.deeper.arrayDepth = a.arrayDepth := rfl
  obtain ⟨hpos, ⟨hplace, hinner⟩ | ⟨hplace, hinner⟩⟩ := h
  · exact ⟨by omega, .inl ⟨hplace, by omega⟩⟩
  · exact ⟨by omega, .inr ⟨hplace, by omega⟩⟩

theorem Passes.feed_eq (h : a.Passes) (e : Event) : a.feed e = .ok (a.feedOutside e) := by
  obtain ⟨-, ⟨hplace, -⟩ | ⟨hplace, -⟩⟩ := h <;> rw [feed, hplace, if_neg (by decide)]

theorem deeper_shallower (a : Assembly) : a.deeper.shallower = a := by
  rw [Assembly.deeper, shallower]
  simp

theorem Passes.openObject (h : a.Passes) : a.openObject = a.deeper := by
  have hroot : (a.rootIsObject || decide (a.depth = 0)) = a.rootIsObject := by
    rw [decide_eq_false (by have := h.1; omega), Bool.or_false]
  have hnot : ¬(a.place = .inArray ∧ a.depth = a.arrayDepth) := by
    rintro ⟨hplace, hdepth⟩
    obtain ⟨-, ⟨-, hinner⟩ | ⟨houtside, -⟩⟩ := h
    · omega
    · rw [hplace] at houtside
      cases houtside
  rw [Assembly.openObject]
  simp only [hroot]
  exact if_neg hnot

theorem Passes.openArray (h : a.Passes) : a.openArray = (a.deeper, none) := by
  have hnot : a.opensRecords = false := by
    obtain ⟨hdepth, ⟨hplace, -⟩ | ⟨-, hinner⟩⟩ := h
    · rw [opensRecords, hplace]
      rfl
    · rw [opensRecords, decide_eq_false (p := a.depth = 0) (by omega),
        decide_eq_false (p := a.depth = 1) (by omega)]
      simp
  rw [Assembly.openArray, hnot]
  rfl

theorem Passes.closeArray (h : a.Passes) : a.deeper.closeArray = (a, none) := by
  have hnot : ¬(a.place = .inArray ∧ a.depth = a.arrayDepth - 1) := by
    rintro ⟨hplace, hdepth⟩
    obtain ⟨-, ⟨-, hinner⟩ | ⟨houtside, -⟩⟩ := h
    · omega
    · rw [hplace] at houtside
      cases houtside
  rw [Assembly.closeArray, deeper_shallower]
  exact if_neg hnot

mutual

/-- A value that is passed over leaves no trace. -/
theorem feedAll_passed : ∀ (v : Json) {a : Assembly}, a.Passes →
    a.feedAll (Event.ofJson v) = .ok ([], a)
  | .null, _, h => feedAll_one (h.feed_eq _)
  | .bool _, _, h => feedAll_one (h.feed_eq _)
  | .int _, _, h => feedAll_one (h.feed_eq _)
  | .float _, _, h => feedAll_one (h.feed_eq _)
  | .str _, _, h => feedAll_one (h.feed_eq _)
  | .arr items, a, h => by
    have hopen : a.feed .startArray = .ok (a.deeper, none) := by
      rw [h.feed_eq, feedOutside, h.openArray]
    have hclose : a.deeper.feed .endArray = .ok (a, none) := by
      rw [h.deeper.feed_eq, feedOutside, h.closeArray]
    exact feedAll_cons hopen (feedAll_append (feedAll_passed_items items h.deeper)
      (feedAll_one hclose))
  | .obj members, a, h => by
    have hopen : a.feed .startObject = .ok (a.deeper, none) := by
      rw [h.feed_eq, feedOutside, h.openObject]
    have hclose : a.deeper.feed .endObject = .ok (a, none) := by
      rw [h.deeper.feed_eq, feedOutside, deeper_shallower]
    exact feedAll_cons hopen (feedAll_append (feedAll_passed_members members h.deeper)
      (feedAll_one hclose))

theorem feedAll_passed_items : ∀ (items : List Json) {a : Assembly}, a.Passes →
    a.feedAll (Event.ofItems items) = .ok ([], a)
  | [], _, _ => rfl
  | v :: items, _, h => feedAll_append (feedAll_passed v h) (feedAll_passed_items items h)

theorem feedAll_passed_members : ∀ (members : List (String × Json)) {a : Assembly}, a.Passes →
    a.feedAll (Event.ofMembers members) = .ok ([], a)
  | [], _, _ => rfl
  | (_, v) :: members, _, h => feedAll_cons (h.feed_eq _)
      (feedAll_append (feedAll_passed v h) (feedAll_passed_members members h))

end

/-! ## The text of a value -/

/-- How records are put together: no blanks, and strings in printable characters. -/
def layout : Layout := ⟨[','], [':'], none, escapeUnprintable⟩

theorem readable_layout : layout.Readable :=
  ⟨⟨[], rfl, List.forall_mem_nil _⟩, ⟨[], rfl, List.forall_mem_nil _⟩, readable_escapeUnprintable⟩

/-- The assembly with the text of a value put. -/
def append (a : Assembly) (s : List Char) : Assembly := a.put (String.ofList s)

theorem append_append (a : Assembly) (s t : List Char) :
    (a.append s).append t = a.append (s ++ t) := by
  simp only [append, put, String.append_assoc, String.ofList_append]

/-- Within the record, below its own members. -/
structure Within (a : Assembly) : Prop where
  place : a.place = .inRecord
  depth : a.arrayDepth < a.depth

theorem Within.feed_eq (h : a.Within) (e : Event) : a.feed e = a.feedRecord e := by
  rw [feed, if_pos h.place]

theorem Within.separate (h : a.Within) : a.separate.Within := by
  rw [Assembly.separate]
  split
  · exact ⟨h.place, h.depth⟩
  · split <;> exact ⟨h.place, h.depth⟩

theorem separate_afterKey (a : Assembly) : a.separate.afterKey = false := by
  rw [separate]
  split
  · rfl
  · rename_i h
    split <;> exact Bool.eq_false_iff.mpr h

/-- A container of the record is open, and nothing was put into it yet. -/
def opened (a : Assembly) (s : List Char) : Assembly :=
  { a.append s with empties := true :: a.empties, depth := a.depth + 1 }

/-- A container of the record is open, and something was put into it. -/
def filled (a : Assembly) (s : List Char) : Assembly :=
  { a.append s with empties := false :: a.empties, depth := a.depth + 1 }

/-- A member's name was put. -/
def keyed (a : Assembly) (s : List Char) : Assembly := { a.append s with afterKey := true }

theorem separate_opened (ha : a.afterKey = false) (s : List Char) :
    (a.opened s).separate = a.filled s := by
  rw [separate, if_neg (show ¬(a.opened s).afterKey = true from ha ▸ Bool.false_ne_true)]
  rfl

theorem separate_filled (ha : a.afterKey = false) (s : List Char) :
    (a.filled s).separate = a.filled (s ++ [',']) := by
  rw [separate, if_neg (show ¬(a.filled s).afterKey = true from ha ▸ Bool.false_ne_true)]
  rw [filled, filled, ← append_append]
  rfl

theorem separate_keyed (ha : a.afterKey = false) (s : List Char) :
    (a.keyed s).separate = a.append s := by
  rw [separate, if_pos (show (a.keyed s).afterKey = true from rfl), keyed]
  simp only [append, put, ← ha]

theorem append_filled (a : Assembly) (s t : List Char) :
    (a.filled s).append t = a.filled (s ++ t) := by
  rw [filled, filled, ← append_append]
  rfl

theorem Within.filled (h : a.Within) (s : List Char) : (a.filled s).Within :=
  ⟨h.place, Int.lt_add_one_of_le (Int.le_of_lt h.depth)⟩

theorem Within.opened (h : a.Within) (s : List Char) : (a.opened s).Within :=
  ⟨h.place, Int.lt_add_one_of_le (Int.le_of_lt h.depth)⟩

theorem Within.keyed (h : a.Within) (s : List Char) : (a.keyed s).Within := ⟨h.place, h.depth⟩

/-- A container that closes below the record's own level completes no record. -/
theorem Within.ascend (h : a.Within) (e : Bool) (s : List Char) (bracket : Char) :
    ({ a.append s with empties := e :: a.empties, depth := a.depth + 1 } : Assembly).ascend
      (String.ofList [bracket]) = (a.append (s ++ [bracket]), none) := by
  have hne : ¬a.depth = (a.append s).arrayDepth := Int.ne_of_gt h.depth
  rw [Assembly.ascend]
  simp only [put, List.tail_cons, Int.add_sub_cancel]
  rw [if_neg hne, ← append_append]
  rfl

theorem quoted_eq (s : String) :
    "\"" ++ escapeText s ++ "\"" = String.ofList (stringChars layout s) := by
  apply String.toList_injective
  simp only [String.toList_append, toList_escapeText, String.toList_ofList, stringChars]
  rfl

theorem name_eq (s : String) :
    "\"" ++ escapeText s ++ "\":" = String.ofList (stringChars layout s ++ layout.colon) := by
  apply String.toList_injective
  simp only [String.toList_append, toList_escapeText, String.toList_ofList, stringChars,
    List.append_assoc]
  rfl

/-- A finite double is written alike in records and outside JSON. -/
theorem plain_float {x : Double} (hx : x.isFinite = true) (depth : Nat) :
    (Json.float x).plain = String.ofList (chars layout depth (.float x)) := by
  rw [plain, chars, doubleChars_eq hx, plainChars, plainScalar, doubleChars_eq hx]
  all_goals intros; contradiction

theorem chars_arr (depth : Nat) (v : Json) (items : List Json) :
    chars layout depth (.arr (v :: items)) = ['['] ++ chars layout (depth + 1) v
      ++ itemsChars layout (depth + 1) items ++ [']'] := by
  have hline : ∀ n, layout.lineBreak n = [] := fun _ => rfl
  rw [chars, hline, hline, List.append_nil]

theorem chars_obj (depth : Nat) (name : String) (v : Json) (more : List (String × Json)) :
    chars layout depth (.obj ((name, v) :: more))
      = ['\x7b'] ++ (stringChars layout name ++ layout.colon ++ chars layout (depth + 1) v)
        ++ membersChars layout (depth + 1) more ++ ['\x7d'] := by
  have hline : ∀ n, layout.lineBreak n = [] := fun _ => rfl
  simp only [chars, hline, List.append_nil, List.append_assoc]

theorem feed_scalar (h : a.Within) {e : Event} {t : List Char}
    (he : ∀ b : Assembly, b.feedRecord e = .ok (b.separate.put e.scalarText, none))
    (ht : e.scalarText = String.ofList t) : a.feedAll [e] = .ok ([], a.separate.append t) := by
  have hfeed : a.feed e = .ok (a.separate.append t, none) := by
    rw [h.feed_eq, he, ht]
    rfl
  exact feedAll_one hfeed

theorem feedAll_member (name : String) {v : Json} (depth : Nat) (h : a.Within)
    (hv : ∀ b : Assembly, b.Within →
      b.feedAll (Event.ofJson v) = .ok ([], b.separate.append (chars layout depth v))) :
    a.feedAll (.key name :: Event.ofJson v)
      = .ok ([], a.separate.append (stringChars layout name ++ layout.colon
          ++ chars layout depth v)) := by
  have hkey : a.feed (.key name)
      = .ok (a.separate.keyed (stringChars layout name ++ layout.colon), none) := by
    rw [h.feed_eq, feedRecord, name_eq]
    rfl
  have hvalue := hv _ (h.separate.keyed (stringChars layout name ++ layout.colon))
  rw [separate_keyed (separate_afterKey a), append_append] at hvalue
  exact feedAll_cons hkey hvalue

mutual

/-- Within a record a value is put as its text. -/
theorem feedAll_value : ∀ (v : Json) (depth : Nat) {a : Assembly}, v.inRange = true → a.Within →
    a.feedAll (Event.ofJson v) = .ok ([], a.separate.append (chars layout depth v))
  | .null, _, _, _, h => feed_scalar h (fun _ => rfl) rfl
  | .bool true, _, _, _, h => feed_scalar h (fun _ => rfl) rfl
  | .bool false, _, _, _, h => feed_scalar h (fun _ => rfl) rfl
  | .int n, _, _, _, h => feed_scalar h (fun _ => rfl) rfl
  | .float x, depth, _, hx, h => feed_scalar h (fun _ => rfl) (plain_float hx depth)
  | .str s, _, _, _, h => feed_scalar h (fun _ => rfl) (quoted_eq s)
  | .arr [], depth, a, _, h => by
    have hopen : a.feed .startArray = .ok (a.separate.opened ['['], none) := h.feed_eq _
    have hclose : (a.separate.opened ['[']).feed .endArray
        = .ok (a.separate.append (chars layout depth (.arr [])), none) := by
      rw [(h.separate.opened _).feed_eq]
      exact congrArg Except.ok (h.separate.ascend true ['['] ']')
    exact feedAll_cons hopen (feedAll_one hclose)
  | .arr (v :: items), depth, a, hv, h => by
    rw [inRange, itemsInRange, Bool.and_eq_true] at hv
    have hopen : a.feed .startArray = .ok (a.separate.opened ['['], none) := h.feed_eq _
    have hfirst := feedAll_value v (depth + 1) hv.1 (h.separate.opened ['['])
    rw [separate_opened (separate_afterKey a), append_filled] at hfirst
    have hmore := feedAll_items items (depth + 1) (['['] ++ chars layout (depth + 1) v) hv.2
      h.separate.filled (separate_afterKey a)
    have hclose : (a.separate.filled (['['] ++ chars layout (depth + 1) v
        ++ itemsChars layout (depth + 1) items)).feed .endArray
        = .ok (a.separate.append (chars layout depth (.arr (v :: items))), none) := by
      rw [(h.separate.filled _).feed_eq, chars_arr]
      exact congrArg Except.ok (h.separate.ascend false _ ']')
    rw [Event.ofJson, Event.ofItems, List.append_assoc]
    exact feedAll_cons hopen (feedAll_append hfirst (feedAll_append hmore (feedAll_one hclose)))
  | .obj [], depth, a, _, h => by
    have hopen : a.feed .startObject = .ok (a.separate.opened ['\x7b'], none) := h.feed_eq _
    have hclose : (a.separate.opened ['\x7b']).feed .endObject
        = .ok (a.separate.append (chars layout depth (.obj [])), none) := by
      rw [(h.separate.opened _).feed_eq]
      exact congrArg Except.ok (h.separate.ascend true ['\x7b'] '\x7d')
    exact feedAll_cons hopen (feedAll_one hclose)
  | .obj ((name, v) :: more), depth, a, hv, h => by
    rw [inRange, membersInRange, Bool.and_eq_true] at hv
    have hopen : a.feed .startObject = .ok (a.separate.opened ['\x7b'], none) := h.feed_eq _
    have hfirst := feedAll_member name (depth + 1) (h.separate.opened ['\x7b'])
      (fun b hb => feedAll_value v (depth + 1) hv.1 hb)
    rw [separate_opened (separate_afterKey a), append_filled] at hfirst
    have hmore := feedAll_members more (depth + 1) (['\x7b'] ++ (stringChars layout name
      ++ layout.colon ++ chars layout (depth + 1) v)) hv.2 h.separate.filled (separate_afterKey a)
    have hclose : (a.separate.filled (['\x7b'] ++ (stringChars layout name ++ layout.colon
        ++ chars layout (depth + 1) v) ++ membersChars layout (depth + 1) more)).feed .endObject
        = .ok (a.separate.append (chars layout depth (.obj ((name, v) :: more))), none) := by
      rw [(h.separate.filled _).feed_eq, chars_obj]
      exact congrArg Except.ok (h.separate.ascend false _ '\x7d')
    rw [Event.ofJson, Event.ofMembers, List.cons_append, List.append_assoc, ← List.cons_append]
    exact feedAll_cons hopen (feedAll_append hfirst (feedAll_append hmore (feedAll_one hclose)))

theorem feedAll_items : ∀ (items : List Json) (depth : Nat) (s : List Char) {a : Assembly},
    itemsInRange items = true → (∀ t, (a.filled t).Within) → a.afterKey = false →
    (a.filled s).feedAll (Event.ofItems items)
      = .ok ([], a.filled (s ++ itemsChars layout depth items))
  | [], _, s, _, _, _, _ => by
    rw [itemsChars, List.append_nil]
    rfl
  | v :: items, depth, s, a, hv, h, ha => by
    rw [itemsInRange, Bool.and_eq_true] at hv
    have hfirst := feedAll_value v depth hv.1 (h s)
    rw [separate_filled ha, append_filled] at hfirst
    have hmore := feedAll_items items depth (s ++ [','] ++ chars layout depth v) hv.2 h ha
    have htext : s ++ itemsChars layout depth (v :: items)
        = s ++ [','] ++ chars layout depth v ++ itemsChars layout depth items := by
      simp only [itemsChars, List.append_assoc]
      rfl
    rw [htext]
    exact feedAll_append hfirst hmore

theorem feedAll_members : ∀ (members : List (String × Json)) (depth : Nat) (s : List Char)
    {a : Assembly}, membersInRange members = true → (∀ t, (a.filled t).Within) →
    a.afterKey = false →
    (a.filled s).feedAll (Event.ofMembers members)
      = .ok ([], a.filled (s ++ membersChars layout depth members))
  | [], _, s, _, _, _, _ => by
    rw [membersChars, List.append_nil]
    rfl
  | (name, v) :: members, depth, s, a, hv, h, ha => by
    rw [membersInRange, Bool.and_eq_true] at hv
    have hfirst := feedAll_member name depth (h s)
      (fun b hb => feedAll_value v depth hv.1 hb)
    rw [separate_filled ha, append_filled] at hfirst
    have hmore := feedAll_members members depth (s ++ [','] ++ (stringChars layout name
      ++ layout.colon ++ chars layout depth v)) hv.2 h ha
    have htext : s ++ membersChars layout depth ((name, v) :: members)
        = s ++ [','] ++ (stringChars layout name ++ layout.colon ++ chars layout depth v)
          ++ membersChars layout depth members := by
      simp only [membersChars, List.append_assoc]
      rfl
    rw [htext, Event.ofMembers, ← List.cons_append]
    exact feedAll_append hfirst hmore

end

/-! ## Records -/

/-- Between the elements of an array of records. -/
def between (root : Bool) (depth : Int) : Assembly :=
  { place := .inArray, depth := depth, rootIsObject := root, arrayDepth := depth }

/-- Outside all arrays of records. -/
def idle (root : Bool) (depth arrayDepth : Int) : Assembly :=
  { depth := depth, rootIsObject := root, arrayDepth := arrayDepth }

/-- The text of a record. -/
def recordText (v : Json) : String := v.render layout

variable {root : Bool} {depth : Int}

theorem feed_between (root : Bool) (depth : Int) (e : Event) :
    (between root depth).feed e = .ok ((between root depth).feedOutside e) := rfl

theorem openObject_between (hdepth : 0 < depth) : (between root depth).openObject
    = opened { between root depth with place := .inRecord } ['\x7b'] := by
  have hroot : (root || decide (depth = 0)) = root := by
    rw [decide_eq_false (by omega), Bool.or_false]
  have hstart : "\x7b" = "" ++ String.ofList ['\x7b'] := rfl
  rw [openObject, between]
  simp only [hroot, and_self, if_true, Assembly.deeper]
  rw [hstart]
  rfl

theorem ascend_record (e : Bool) (s : List Char) :
    ({ ({ between root depth with place := .inRecord } : Assembly).append s with
      empties := [e], depth := depth + 1 } : Assembly).ascend (String.ofList ['\x7d'])
        = (between root depth, some (.record (String.ofList (s ++ ['\x7d'])))) := by
  rw [ascend]
  simp only [put, append, between, List.tail_cons, Int.add_sub_cancel, if_true, String.empty_append,
    String.ofList_append]

/-- An object among the elements is delivered as the text of a record. -/
theorem feedAll_record (hdepth : 0 < depth) {members : List (String × Json)}
    (hrange : membersInRange members = true) :
    (between root depth).feedAll (Event.ofJson (.obj members))
      = .ok ([.record (recordText (.obj members))], between root depth) := by
  have hopen : (between root depth).feed .startObject
      = .ok (opened { between root depth with place := .inRecord } ['\x7b'], none) := by
    rw [feed_between, feedOutside, openObject_between hdepth]
  cases members with
  | nil =>
      have hclose : (opened { between root depth with place := .inRecord } ['\x7b']).feed .endObject
          = .ok (between root depth, some (.record (recordText (.obj [])))) :=
        congrArg Except.ok (ascend_record true ['\x7b'])
      exact feedAll_cons hopen (feedAll_one hclose)
  | cons m more =>
      obtain ⟨name, v⟩ := m
      rw [membersInRange, Bool.and_eq_true] at hrange
      have hwithin : ∀ t, (filled { between root depth with place := .inRecord } t).Within :=
        fun _ => ⟨rfl, Int.lt_succ depth⟩
      have hfirst := feedAll_member name 1
        (a := opened { between root depth with place := .inRecord } ['\x7b'])
        ⟨rfl, Int.lt_succ depth⟩ (fun b hb => feedAll_value v 1 hrange.1 hb)
      rw [separate_opened rfl, append_filled] at hfirst
      have hmore := feedAll_members more 1 (['\x7b'] ++ (stringChars layout name ++ layout.colon
        ++ chars layout 1 v)) hrange.2 hwithin rfl
      have hclose : (filled { between root depth with place := .inRecord } (['\x7b']
          ++ (stringChars layout name ++ layout.colon ++ chars layout 1 v)
            ++ membersChars layout 1 more)).feed .endObject
          = .ok (between root depth, some (.record (recordText (.obj ((name, v) :: more))))) := by
        rw [recordText, render, chars_obj]
        exact congrArg Except.ok (ascend_record false _)
      rw [Event.ofJson, Event.ofMembers, List.cons_append, List.append_assoc, ← List.cons_append]
      exact feedAll_cons hopen (feedAll_append hfirst (feedAll_append hmore (feedAll_one hclose)))

theorem passes_between (hdepth : 0 < depth) : (between root depth).deeper.Passes :=
  ⟨Int.lt_add_one_of_le (Int.le_of_lt hdepth), .inl ⟨rfl, Int.lt_succ depth⟩⟩

/-- Elements that are no objects deliver nothing. -/
theorem feedAll_element (hdepth : 0 < depth) {v : Json} (hv : v.inRange = true) :
    (between root depth).feedAll (Event.ofJson v)
      = .ok (((objectsOf [v]).map recordText).map .record, between root depth) := by
  cases v with
  | arr items =>
      have hclose : (between root depth).deeper.feed .endArray
          = .ok (between root depth, none) := by
        have hnot : ¬((between root depth).place = .inArray
            ∧ (between root depth).depth = (between root depth).arrayDepth - 1) :=
          fun h => absurd h.2 (by simp only [between]; omega)
        rw [(passes_between hdepth).feed_eq, feedOutside, closeArray, deeper_shallower]
        exact congrArg Except.ok (if_neg hnot)
      exact feedAll_cons (feed_between root depth _) (feedAll_append
        (feedAll_passed_items items (passes_between hdepth)) (feedAll_one hclose))
  | obj members => exact feedAll_record hdepth hv
  | _ => exact feedAll_one (feed_between root depth _)

theorem feedAll_elements (hdepth : 0 < depth) {items : List Json}
    (hitems : itemsInRange items = true) : (between root depth).feedAll (Event.ofItems items)
      = .ok (((objectsOf items).map recordText).map .record, between root depth) := by
  induction items with
  | nil => rfl
  | cons v items ih =>
      rw [itemsInRange, Bool.and_eq_true] at hitems
      have hsplit : objectsOf (v :: items) = objectsOf [v] ++ objectsOf items := by
        rw [objectsOf, objectsOf, objectsOf, ← List.filter_append, List.singleton_append]
      rw [Event.ofItems, hsplit, List.map_append, List.map_append]
      exact feedAll_append (feedAll_element hdepth hitems.1) (ih hitems.2)

/-! ## Documents -/

/-- The objects that an array delivers, as items. -/
def arrayTexts (items : List Json) : List (Item String) :=
  arrayItems ((objectsOf items).map recordText)

theorem feedAll_array {arrayDepth : Int} {items : List Json} (hdepth : 0 ≤ depth)
    (hopens : (idle root depth arrayDepth).opensRecords = true)
    (hitems : itemsInRange items = true) :
    (idle root depth arrayDepth).feedAll (Event.ofJson (.arr items))
      = .ok (arrayTexts items, idle root depth (depth + 1)) := by
  have hopen : (idle root depth arrayDepth).feed .startArray
      = .ok (between root (depth + 1), some .arrayStart) :=
    congrArg Except.ok (if_pos hopens)
  have hclose : (between root (depth + 1)).feed .endArray
      = .ok (idle root depth (depth + 1), some .arrayEnd) := by
    rw [feed_between, feedOutside, closeArray, shallower, between]
    simp only [Int.add_sub_cancel, and_self, if_true]
    rfl
  exact feedAll_cons hopen (feedAll_append (feedAll_elements (by omega) hitems)
    (feedAll_one hclose))

/-- What a member of the document delivers. -/
def memberTexts (m : String × Json) : List (Item String) :=
  match memberObjects? m with
  | some objects => arrayItems (objects.map recordText)
  | none => []

/-- Only the arrays among the members of a document deliver anything. -/
theorem feedAll_documentMember (name : String) {v : Json} (hv : v.inRange = true)
    (arrayDepth : Int) :
    ∃ arrayDepth', (idle true 1 arrayDepth).feedAll (.key name :: Event.ofJson v)
      = .ok (memberTexts (name, v), idle true 1 arrayDepth') := by
  have hkey : (idle true 1 arrayDepth).feed (.key name) = .ok (idle true 1 arrayDepth, none) := rfl
  cases v with
  | arr items =>
      exact ⟨2, feedAll_cons hkey (feedAll_array (by decide) rfl hv)⟩
  | obj members =>
      have hpasses : (idle true 1 arrayDepth).deeper.Passes :=
        ⟨(by decide : (0 : Int) < 2), .inr ⟨rfl, (by decide : (1 : Int) < 2)⟩⟩
      have hopen : (idle true 1 arrayDepth).feed .startObject
          = .ok ((idle true 1 arrayDepth).deeper, none) := rfl
      have hclose : (idle true 1 arrayDepth).deeper.feed .endObject
          = .ok (idle true 1 arrayDepth, none) := rfl
      exact ⟨arrayDepth, feedAll_cons hkey (feedAll_cons hopen (feedAll_append
        (feedAll_passed_members members hpasses) (feedAll_one hclose)))⟩
  | _ => exact ⟨arrayDepth, feedAll_cons hkey (feedAll_silent rfl)⟩

theorem feedAll_documentMembers {members : List (String × Json)}
    (hmembers : membersInRange members = true) (arrayDepth : Int) :
    ∃ arrayDepth', (idle true 1 arrayDepth).feedAll (Event.ofMembers members)
      = .ok (members.flatMap memberTexts, idle true 1 arrayDepth') := by
  induction members generalizing arrayDepth with
  | nil => exact ⟨arrayDepth, rfl⟩
  | cons m members ih =>
      obtain ⟨name, v⟩ := m
      rw [membersInRange, Bool.and_eq_true] at hmembers
      obtain ⟨d, hfirst⟩ := feedAll_documentMember name hmembers.1 arrayDepth
      obtain ⟨d', hmore⟩ := ih hmembers.2 d
      refine ⟨d', ?_⟩
      rw [Event.ofMembers, ← List.cons_append, List.flatMap_cons]
      exact feedAll_append hfirst hmore

/-- What a document delivers, with its records as texts. -/
def documentTexts (doc : Json) : List (Item String) :=
  ((objectArrays doc).map (List.map recordText)).flatMap arrayItems

theorem documentTexts_obj (members : List (String × Json)) :
    documentTexts (.obj members) = members.flatMap memberTexts := by
  rw [documentTexts, objectArrays]
  induction members with
  | nil => rfl
  | cons m members ih =>
      rw [List.flatMap_cons, ← ih, List.filterMap_cons, memberTexts]
      cases memberObjects? m <;> rfl

/-- A whole document is fed without a fault and leaves the assembly outside of everything. -/
theorem feedAll_texts {doc : Json} (h : doc.inRange = true) :
    ∃ root arrayDepth, feedAll {} (Event.ofJson doc)
      = .ok (documentTexts doc, idle root 0 arrayDepth) := by
  cases doc with
  | arr items =>
      refine ⟨false, 1, ?_⟩
      have hall : feedAll {} (Event.ofJson (.arr items)) = .ok (arrayTexts items, idle false 0 1) :=
        feedAll_array (Int.le_refl 0) rfl h
      rw [hall]
      rw [documentTexts, objectArrays, List.map_cons, List.map_nil, List.flatMap_cons,
        List.flatMap_nil, List.append_nil]
      rfl
  | obj members =>
      obtain ⟨d, hmembers⟩ := feedAll_documentMembers h 0
      refine ⟨true, d, ?_⟩
      have hopen : ({} : Assembly).feed .startObject = .ok (idle true 1 0, none) := rfl
      have hclose : (idle true 1 d).feed .endObject = .ok (idle true 0 d, none) := rfl
      rw [documentTexts_obj]
      have hall := feedAll_append hmembers (feedAll_silent hclose)
      rw [List.append_nil] at hall
      exact feedAll_cons hopen hall
  | _ => exact ⟨false, 0, feedAll_silent rfl⟩

/-! ## Reading the records -/

theorem parsed_text {item : Item Json} (h : ∀ v, item = .record v → v.inRange = true) :
    (item.map recordText).parsed = .ok (item.map Json.settled) := by
  cases item with
  | record v =>
      have hread := parse_render readable_layout (h v rfl)
      simp only [Item.map, Item.parsed, recordText, readRecord, hread, Except.map]
  | _ => rfl

theorem mapM_ok {α β ε : Type} {f : α → Except ε β} {g : α → β} {l : List α}
    (h : ∀ x ∈ l, f x = .ok (g x)) : l.mapM f = .ok (l.map g) := by
  induction l with
  | nil => rfl
  | cons x l ih =>
      rw [List.mapM_cons, h x List.mem_cons_self, ih fun y hy => h y (List.mem_cons_of_mem x hy)]
      rfl

theorem parsed_documentTexts {doc : Json} (h : doc.inRange = true) :
    (documentTexts doc).mapM Item.parsed = .ok (documentItems doc) := by
  rw [documentTexts, flatMap_arrayItems_map, documentItems, recordArrays, flatMap_arrayItems_map,
    List.mapM_map]
  refine mapM_ok fun item hitem => parsed_text ?_
  rintro v rfl
  obtain ⟨objects, hobjects, hrecord⟩ := List.mem_flatMap.mp hitem
  exact inRange_of_objectArrays h objects hobjects v (mem_arrayItems.mp hrecord)

/-- Fed the events of a document, a fresh assembly delivers the document's arrays of records, each
record as a text that is read as that record; it ends outside of everything. -/
theorem feedAll_document (doc : Json) (h : doc.inRange = true) :
    ∃ texts a, feedAll {} (Event.ofJson doc) = .ok (texts, a) ∧
      itemsFrom {} (Event.ofJson doc) = (texts, none) ∧
      texts.mapM Item.parsed = .ok (documentItems doc) ∧ a.place = .outside ∧ a.depth = 0 := by
  obtain ⟨root, arrayDepth, hfeed⟩ := feedAll_texts h
  exact ⟨_, _, hfeed, itemsFrom_of_feedAll hfeed, parsed_documentTexts h, rfl, rfl⟩

/-- An envelope with two arrays, the one nested in a member's object left out, and a record with a
repeated name. -/
def envelope : Json :=
  .obj [("total", .int 2), ("meta", .obj [("inner", .arr [.obj []])]),
    ("items", .arr [.obj [("id", .str "a"), ("n", .arr [.int 1]), ("id", .null)], .arr [.obj []]]),
    ("more", .arr [])]

theorem feedAll_envelope : envelope.inRange = true ∧
    ∃ texts a, feedAll {} (Event.ofJson envelope) = .ok (texts, a) ∧
      itemsFrom {} (Event.ofJson envelope) = (texts, none) ∧
      texts.mapM Item.parsed = .ok [.arrayStart,
        .record (.obj [("id", .null), ("n", .arr [.int 1])]), .arrayEnd, .arrayStart, .arrayEnd] ∧
      a.place = .outside ∧ a.depth = 0 :=
  ⟨rfl, feedAll_document envelope rfl⟩

end Assembly

end Staging.Page
