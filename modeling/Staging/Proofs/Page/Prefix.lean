import Staging.Proofs.Page.Assembly

/-!
# Wherever a page breaks off

An assembly that was fed any first part of a document's events knows how deep it is and whether it
is within a record, and has a flag for every container of the record that is open
(`feedAll_prefix`). The invariant lists the six ways in which the open containers can lie to the
array of records (`Stands`); what is delivered depends on the places before and after an event alone
(`Announces`).
-/

namespace Staging.Page

open Json

/-! ## Open containers -/

namespace Event

/-- The containers that are open after an event, innermost first. No event closes what is not open.
-/
def nest? : List Container → Event → Option (List Container)
  | within, .startObject => some (.object :: within)
  | within, .startArray => some (.array :: within)
  | .object :: outer, .endObject => some outer
  | .array :: outer, .endArray => some outer
  | _, .endObject | _, .endArray | _, .foreign _ => none
  | within, _ => some within

theorem nest_endObject {within next : List Container} (h : nest? within .endObject = some next) :
    within = .object :: next := by
  rcases within with _ | ⟨_ | _, outer⟩
  · cases h
  · rw [Option.some.inj h]
  · cases h

theorem nest_endArray {within next : List Container} (h : nest? within .endArray = some next) :
    within = .array :: next := by
  rcases within with _ | ⟨_ | _, outer⟩
  · cases h
  · cases h
  · rw [Option.some.inj h]

/-- The containers that are open after these events. -/
def open? (es : List Event) : Option (List Container) := es.foldlM nest? []

mutual

/-- A value closes whatever it opens. -/
theorem nest_ofJson : ∀ (v : Json) (within : List Container),
    (ofJson v).foldlM nest? within = some within
  | .null, _ | .bool _, _ | .int _, _ | .float _, _ | .str _, _ => rfl
  | .arr items, within => by
    rw [ofJson, List.foldlM_cons]
    show (ofItems items ++ [endArray]).foldlM nest? (.array :: within) = _
    rw [List.foldlM_append, nest_ofItems]
    rfl
  | .obj members, within => by
    rw [ofJson, List.foldlM_cons]
    show (ofMembers members ++ [endObject]).foldlM nest? (.object :: within) = _
    rw [List.foldlM_append, nest_ofMembers]
    rfl

theorem nest_ofItems : ∀ (items : List Json) (within : List Container),
    (ofItems items).foldlM nest? within = some within
  | [], _ => rfl
  | v :: items, within => by
    rw [ofItems, List.foldlM_append, nest_ofJson]
    exact nest_ofItems items within

theorem nest_ofMembers : ∀ (members : List (String × Json)) (within : List Container),
    (ofMembers members).foldlM nest? within = some within
  | [], _ => rfl
  | (name, v) :: members, within => by
    rw [ofMembers, List.foldlM_cons]
    show (ofJson v ++ ofMembers members).foldlM nest? within = _
    rw [List.foldlM_append, nest_ofJson]
    exact nest_ofMembers members within

end

/-- The first events of a document close nothing but what they opened. -/
theorem open_of_prefix {doc : Json} {es : List Event} (h : es <+: ofJson doc) :
    ∃ within, open? es = some within := by
  obtain ⟨more, hmore⟩ := h
  have hall := nest_ofJson doc []
  rw [← hmore, List.foldlM_append] at hall
  obtain ⟨within, hes, -⟩ := Option.bind_eq_some_iff.mp hall
  exact ⟨within, hes⟩

end Event

/-- Among the open containers is an element of an array of records: an object in an array that is
the document or a member of the document. -/
def InRecord (within : List Container) : Prop :=
  [.object, .array] <:+ within ∨ [.object, .array, .object] <:+ within

instance (within : List Container) : Decidable (InRecord within) :=
  inferInstanceAs (Decidable (_ ∨ _))

/-- Seen from the outermost container inward. -/
theorem inRecord_iff {within : List Container} : InRecord within ↔
    [.array, .object] <+: within.reverse ∨ [.object, .array, .object] <+: within.reverse := by
  rw [InRecord, ← List.reverse_prefix, ← List.reverse_prefix]
  rfl

/-- How many records the events close, beginning within these containers. -/
def recordsClosed : List Container → List Event → Nat
  | _, [] => 0
  | within, e :: es =>
    match e.nest? within with
    | none => 0
    | some next => (if InRecord within ∧ ¬InRecord next then 1 else 0) + recordsClosed next es

namespace Assembly

variable {a b : Assembly} {within base : List Container} {e : Event} {item : Option (Item String)}

/-! ## What the assembly knows -/

/-- These containers lie around the elements of the array of records that is open. -/
structure Base (a : Assembly) (base : List Container) : Prop where
  shape : base = [.array] ∨ base = [.array, .object] ∧ a.rootIsObject = true
  depth : a.arrayDepth = base.length

/-- How the assembly stands within open containers. -/
inductive Stands : List Container → Assembly → Prop
  | outside {a : Assembly} (hplace : a.place = .outside) (hdepth : a.depth = 0) : Stands [] a
  | envelope {a : Assembly} (hplace : a.place = .outside) (hdepth : a.depth = 1)
    (hroot : a.rootIsObject = true) : Stands [.object] a
  /-- In an object that is a member of the document. -/
  | aside {a : Assembly} (inner : List Container) (hplace : a.place = .outside)
    (hdepth : a.depth = inner.length + 2) (hroot : a.rootIsObject = true) :
    Stands (inner ++ [.object, .object]) a
  | elements {a : Assembly} {base : List Container} (hbase : a.Base base)
    (hplace : a.place = .inArray) (hdepth : a.depth = a.arrayDepth) : Stands base a
  /-- In an array among the elements. -/
  | passed {a : Assembly} {base : List Container} (inner : List Container) (hbase : a.Base base)
    (hplace : a.place = .inArray) (hdepth : a.depth = inner.length + 1 + a.arrayDepth) :
    Stands (inner ++ .array :: base) a
  | record {a : Assembly} {base : List Container} (inner : List Container) (hbase : a.Base base)
    (hplace : a.place = .inRecord) (hdepth : a.depth = inner.length + 1 + a.arrayDepth)
    (hempties : a.empties.length = inner.length + 1) : Stands (inner ++ .object :: base) a

theorem stands_fresh : Stands [] {} := .outside rfl rfl

theorem Stands.depth_eq (h : Stands within a) : a.depth = within.length := by
  cases h with
  | outside hplace hdepth => simp [hdepth]
  | envelope hplace hdepth hroot => simp [hdepth]
  | aside inner hplace hdepth hroot => simp [hdepth]
  | elements hbase hplace hdepth => rw [hdepth, hbase.depth]
  | passed inner hbase hplace hdepth => simp [hdepth, hbase.depth]; omega
  | record inner hbase hplace hdepth hempties => simp [hdepth, hbase.depth]; omega

theorem Stands.inRecord_iff (h : Stands within a) : a.place = .inRecord ↔ InRecord within := by
  cases h with
  | outside hplace hdepth => simp [hplace, inRecord_iff]
  | envelope hplace hdepth hroot => simp [hplace, inRecord_iff]
  | aside inner hplace hdepth hroot => simp [hplace, inRecord_iff]
  | elements hbase hplace hdepth =>
      obtain ⟨rfl | ⟨rfl, -⟩, -⟩ := hbase <;> simp [hplace, inRecord_iff]
  | passed inner hbase hplace hdepth =>
      obtain ⟨rfl | ⟨rfl, -⟩, -⟩ := hbase <;> simp [hplace, inRecord_iff]
  | record inner hbase hplace hdepth hempties =>
      obtain ⟨rfl | ⟨rfl, -⟩, -⟩ := hbase <;> simp [hplace, inRecord_iff]

theorem Stands.place_of_nil (h : Stands [] a) : a.place = .outside := by
  generalize hwithin : ([] : List Container) = within at h
  cases h with
  | outside hplace | envelope hplace | aside _ hplace => exact hplace
  | elements hbase => obtain ⟨rfl | ⟨rfl, -⟩, -⟩ := hbase <;> cases hwithin
  | passed inner | record inner => simp at hwithin

/-- Within a record there is a flag for each of its open containers, and one of them is open. -/
theorem Stands.empties (h : Stands within a) (hplace : a.place = .inRecord) :
    a.empties ≠ [] ∧ (a.empties.length : Int) = a.depth - a.arrayDepth := by
  cases h with
  | record inner hbase hplace hdepth hempties =>
      refine ⟨List.ne_nil_of_length_pos (by omega), by omega⟩
  | outside h' | envelope h' | aside _ h' | elements _ h' | passed _ _ h' =>
      rw [h'] at hplace
      cases hplace

/-! ## Containers outside records -/

theorem Base.pos (h : a.Base base) : 0 < a.arrayDepth := by
  obtain ⟨rfl | ⟨rfl, -⟩, hdepth⟩ := h <;> rw [hdepth] <;> decide

theorem passes_aside {n : Nat} (hplace : a.place = .outside) (hdepth : a.depth = n + 2) :
    a.Passes := ⟨by omega, .inr ⟨hplace, by omega⟩⟩

theorem Base.passes {n : Nat} (h : a.Base base) (hplace : a.place = .inArray)
    (hdepth : a.depth = n + 1 + a.arrayDepth) : a.Passes := by
  have hpos := h.pos
  exact ⟨by omega, .inl ⟨hplace, by omega⟩⟩

/-! Containers that open and close where all is passed over leave the assembly where it stands. -/

theorem aside_deeper (c : Container) {inner : List Container} (hplace : a.place = .outside)
    (hdepth : a.depth = inner.length + 2) (hroot : a.rootIsObject = true) :
    Stands (c :: (inner ++ [.object, .object])) a.deeper := by
  refine .aside (c :: inner) hplace ?_ hroot
  simp only [deeper, hdepth, List.length_cons]
  omega

theorem aside_shallower {c : Container} {inner : List Container} (hplace : a.place = .outside)
    (hdepth : a.depth = (c :: inner).length + 2) (hroot : a.rootIsObject = true) :
    Stands (inner ++ [.object, .object]) a.shallower := by
  refine .aside inner hplace ?_ hroot
  simp only [shallower, hdepth, List.length_cons]
  omega

theorem passed_deeper (c : Container) {inner : List Container} (hbase : a.Base base)
    (hplace : a.place = .inArray) (hdepth : a.depth = inner.length + 1 + a.arrayDepth) :
    Stands (c :: (inner ++ .array :: base)) a.deeper := by
  refine .passed (c :: inner) ⟨hbase.shape, hbase.depth⟩ hplace ?_
  simp only [deeper, hdepth, List.length_cons]
  omega

theorem passed_shallower {c : Container} {inner : List Container} (hbase : a.Base base)
    (hplace : a.place = .inArray) (hdepth : a.depth = (c :: inner).length + 1 + a.arrayDepth) :
    Stands (inner ++ .array :: base) a.shallower := by
  refine .passed inner ⟨hbase.shape, hbase.depth⟩ hplace ?_
  simp only [shallower, hdepth, List.length_cons]
  omega

/-- An object among the elements is a record. -/
theorem openObject_element (hbase : a.Base base) (hplace : a.place = .inArray)
    (hdepth : a.depth = a.arrayDepth) : a.openObject = { a.deeper with
      place := .inRecord, text := "\x7b", empties := [true], afterKey := false } := by
  have hroot : (a.rootIsObject || decide (a.depth = 0)) = a.rootIsObject := by
    rw [decide_eq_false (by have := hbase.pos; omega), Bool.or_false]
  rw [Assembly.openObject]
  simp only [hroot]
  exact if_pos ⟨hplace, hdepth⟩

theorem closeArray_passed (hnot : ¬(a.place = .inArray ∧ a.depth = a.arrayDepth)) :
    a.closeArray = (a.shallower, none) := by
  refine if_neg fun h => hnot ⟨h.1, ?_⟩
  have := h.2
  simp only [shallower] at this
  omega

theorem closeArray_elements (hplace : a.place = .inArray) (hdepth : a.depth = a.arrayDepth) :
    a.closeArray = ({ a.shallower with place := .outside }, some .arrayEnd) := by
  refine if_pos ⟨hplace, ?_⟩
  simp only [shallower, hdepth]

theorem Stands.openObject (h : Stands within a) (hout : a.place ≠ .inRecord) :
    Stands (.object :: within) a.openObject := by
  cases h with
  | outside hplace hdepth =>
      refine .envelope ?_ ?_ ?_ <;> simp [Assembly.openObject, deeper, hplace, hdepth]
  | envelope hplace hdepth hroot =>
      refine .aside [] ?_ ?_ ?_ <;> simp [Assembly.openObject, deeper, hplace, hdepth, hroot]
  | aside inner hplace hdepth hroot =>
      rw [(passes_aside hplace hdepth).openObject]
      exact aside_deeper .object hplace hdepth hroot
  | elements hbase hplace hdepth =>
      rw [openObject_element hbase hplace hdepth]
      refine .record [] ⟨hbase.shape, hbase.depth⟩ rfl ?_ rfl
      simp only [deeper, hdepth, List.length_nil]
      omega
  | passed inner hbase hplace hdepth =>
      rw [(hbase.passes hplace hdepth).openObject]
      exact passed_deeper .object hbase hplace hdepth
  | record _ _ hplace => exact absurd hplace hout

theorem Stands.openArray (h : Stands within a) (hout : a.place ≠ .inRecord) :
    Stands (.array :: within) a.openArray.1 := by
  cases h with
  | outside hplace hdepth =>
      have hopens : a.opensRecords = true := by simp [opensRecords, hplace, hdepth]
      rw [Assembly.openArray, if_pos hopens]
      refine .elements ⟨.inl rfl, ?_⟩ rfl rfl
      simp [hdepth]
  | envelope hplace hdepth hroot =>
      have hopens : a.opensRecords = true := by simp [opensRecords, hplace, hdepth, hroot]
      rw [Assembly.openArray, if_pos hopens]
      refine .elements ⟨.inr ⟨rfl, hroot⟩, ?_⟩ rfl rfl
      simp [hdepth]
  | aside inner hplace hdepth hroot =>
      rw [(passes_aside hplace hdepth).openArray]
      exact aside_deeper .array hplace hdepth hroot
  | elements hbase hplace hdepth =>
      have hopens : ¬a.opensRecords = true := by simp [opensRecords, hplace]
      rw [Assembly.openArray, if_neg hopens]
      refine .passed [] ⟨hbase.shape, hbase.depth⟩ hplace ?_
      simp only [deeper, hdepth, List.length_nil]
      omega
  | passed inner hbase hplace hdepth =>
      rw [(hbase.passes hplace hdepth).openArray]
      exact passed_deeper .array hbase hplace hdepth
  | record _ _ hplace => exact absurd hplace hout

/-- The container that closes is the last one in `inner`, or, if there is none, the one that the way
of standing began with. -/
theorem Stands.closeObject {outer : List Container} (h : Stands (.object :: outer) a)
    (hout : a.place ≠ .inRecord) : Stands outer a.shallower := by
  generalize hwithin : Container.object :: outer = within at h
  cases h with
  | outside => cases hwithin
  | envelope hplace hdepth hroot =>
      obtain rfl := (List.cons.inj hwithin).2
      exact .outside hplace (by simp [shallower, hdepth])
  | aside inner hplace hdepth hroot =>
      cases inner with
      | nil =>
          obtain rfl := (List.cons.inj hwithin).2
          exact .envelope hplace (by simp [shallower, hdepth]) hroot
      | cons c inner =>
          obtain rfl := (List.cons.inj hwithin).2
          exact aside_shallower hplace hdepth hroot
  | elements hbase hplace hdepth =>
      obtain ⟨rfl | ⟨rfl, -⟩, -⟩ := hbase <;> cases hwithin
  | passed inner hbase hplace hdepth =>
      cases inner with
      | nil => cases hwithin
      | cons c inner =>
          obtain rfl := (List.cons.inj hwithin).2
          exact passed_shallower hbase hplace hdepth
  | record _ _ hplace => exact absurd hplace hout

theorem Stands.closeArray {outer : List Container} (h : Stands (.array :: outer) a)
    (hout : a.place ≠ .inRecord) : Stands outer a.closeArray.1 := by
  generalize hwithin : Container.array :: outer = within at h
  cases h with
  | outside => cases hwithin
  | envelope => cases hwithin
  | aside inner hplace hdepth hroot =>
      rw [closeArray_passed (by simp [hplace])]
      cases inner with
      | nil => cases hwithin
      | cons c inner =>
          obtain rfl := (List.cons.inj hwithin).2
          exact aside_shallower hplace hdepth hroot
  | elements hbase hplace hdepth =>
      rw [closeArray_elements hplace hdepth]
      obtain ⟨rfl | ⟨rfl, hroot⟩, hlevel⟩ := hbase
      · obtain rfl := (List.cons.inj hwithin).2
        exact .outside rfl (by simp [shallower, hdepth, hlevel])
      · obtain rfl := (List.cons.inj hwithin).2
        exact .envelope rfl (by simp [shallower, hdepth, hlevel]) hroot
  | passed inner hbase hplace hdepth =>
      rw [closeArray_passed (by omega)]
      cases inner with
      | nil =>
          obtain rfl := (List.cons.inj hwithin).2
          refine .elements ⟨hbase.shape, hbase.depth⟩ hplace ?_
          simp only [shallower, hdepth, List.length_nil]
          omega
      | cons c inner =>
          obtain rfl := (List.cons.inj hwithin).2
          exact passed_shallower hbase hplace hdepth
  | record _ _ hplace => exact absurd hplace hout

/-! ## Containers of a record -/

/-- What was put into a record makes no difference to where the assembly stands. -/
structure Alike (a b : Assembly) : Prop where
  place : b.place = a.place
  depth : b.depth = a.depth
  root : b.rootIsObject = a.rootIsObject
  level : b.arrayDepth = a.arrayDepth
  flags : b.empties.length = a.empties.length

theorem alike_separate (a : Assembly) : Alike a a.separate := by
  unfold separate
  split
  · exact ⟨rfl, rfl, rfl, rfl, rfl⟩
  · split
    · rename_i heq
      exact ⟨rfl, rfl, rfl, rfl, by rw [heq]; rfl⟩
    · exact ⟨rfl, rfl, rfl, rfl, rfl⟩

theorem Base.alike (h : a.Base base) (hab : Alike a b) : b.Base base := by
  refine ⟨?_, hab.level.trans h.depth⟩
  rw [hab.root]
  exact h.shape

theorem Stands.alike (h : Stands within a) (hab : Alike a b) : Stands within b := by
  cases h with
  | outside hplace hdepth => exact .outside (hab.place.trans hplace) (hab.depth.trans hdepth)
  | envelope hplace hdepth hroot =>
      exact .envelope (hab.place.trans hplace) (hab.depth.trans hdepth) (hab.root.trans hroot)
  | aside inner hplace hdepth hroot =>
      exact .aside inner (hab.place.trans hplace) (hab.depth.trans hdepth) (hab.root.trans hroot)
  | elements hbase hplace hdepth =>
      refine .elements (hbase.alike hab) (hab.place.trans hplace) ?_
      rw [hab.depth, hab.level, hdepth]
  | passed inner hbase hplace hdepth =>
      refine .passed inner (hbase.alike hab) (hab.place.trans hplace) ?_
      rw [hab.depth, hab.level, hdepth]
  | record inner hbase hplace hdepth hempties =>
      refine .record inner (hbase.alike hab) (hab.place.trans hplace) ?_ (hab.flags.trans hempties)
      rw [hab.depth, hab.level, hdepth]

theorem Stands.descend (h : Stands within a) (hin : a.place = .inRecord) (c : Container)
    (bracket : String) : Stands (c :: within) (a.descend bracket) := by
  have hseparated := h.alike (alike_separate a)
  rw [← (alike_separate a).place] at hin
  rw [Assembly.descend]
  generalize a.separate = b at hseparated hin
  cases hseparated with
  | record inner hbase hplace hdepth hempties =>
      refine .record (c :: inner) ⟨hbase.shape, hbase.depth⟩ hplace ?_ ?_
      · simp only [put, hdepth, List.length_cons]
        omega
      · simp only [put, hempties, List.length_cons]
  | outside h' | envelope h' | aside _ h' | elements _ h' | passed _ _ h' =>
      rw [h'] at hin
      cases hin

theorem Stands.ascend {c : Container} {outer : List Container} (h : Stands (c :: outer) a)
    (hin : a.place = .inRecord) (bracket : String) : Stands outer (a.ascend bracket).1 := by
  generalize hwithin : c :: outer = within at h
  cases h with
  | record inner hbase hplace hdepth hempties =>
      cases inner with
      | nil =>
          obtain rfl := (List.cons.inj hwithin).2
          have hends : a.depth - 1 = a.arrayDepth := by
            rw [hdepth, List.length_nil]
            omega
          rw [Assembly.ascend]
          simp only [put, hends, if_true]
          exact .elements ⟨hbase.shape, hbase.depth⟩ rfl rfl
      | cons c inner =>
          obtain rfl := (List.cons.inj hwithin).2
          have hstays : ¬a.depth - 1 = a.arrayDepth := by
            rw [hdepth, List.length_cons]
            omega
          rw [Assembly.ascend]
          simp only [put, hstays, if_false]
          refine .record inner ⟨hbase.shape, hbase.depth⟩ hplace ?_ ?_
          · simp only [hdepth, List.length_cons]
            omega
          · simp only [List.length_tail, hempties, List.length_cons, Nat.add_sub_cancel]
  | outside h' | envelope h' | aside _ h' | elements _ h' | passed _ _ h' =>
      rw [h'] at hin
      cases hin

/-! ## One event -/

variable {next : List Container}

/-- Within a record an event is taken, and the assembly goes along with the containers. -/
theorem Stands.feed_inside (h : Stands within a) (hin : a.place = .inRecord)
    (he : e.nest? within = some next) :
    ∃ b item, a.feedRecord e = .ok (b, item) ∧ Stands next b := by
  have hput := alike_separate a
  cases e with
  | startObject =>
      obtain rfl := Option.some.inj he
      exact ⟨_, none, rfl, h.descend hin .object _⟩
  | startArray =>
      obtain rfl := Option.some.inj he
      exact ⟨_, none, rfl, h.descend hin .array _⟩
  | endObject =>
      obtain rfl := Event.nest_endObject he
      exact ⟨_, _, rfl, h.ascend hin _⟩
  | endArray =>
      obtain rfl := Event.nest_endArray he
      exact ⟨_, _, rfl, h.ascend hin _⟩
  | foreign name => cases within <;> cases he
  | _ =>
      obtain rfl := Option.some.inj he
      exact ⟨_, none, rfl, h.alike ⟨hput.place, hput.depth, hput.root, hput.level, hput.flags⟩⟩

theorem Stands.feed_outside (h : Stands within a) (hout : a.place ≠ .inRecord)
    (he : e.nest? within = some next) : Stands next (a.feedOutside e).1 := by
  cases e with
  | startObject =>
      obtain rfl := Option.some.inj he
      exact h.openObject hout
  | startArray =>
      obtain rfl := Option.some.inj he
      exact h.openArray hout
  | endObject =>
      obtain rfl := Event.nest_endObject he
      exact h.closeObject hout
  | endArray =>
      obtain rfl := Event.nest_endArray he
      exact h.closeArray hout
  | foreign name => cases within <;> cases he
  | _ =>
      obtain rfl := Option.some.inj he
      exact h

/-- An event that closes nothing but what is open is taken. -/
theorem Stands.feed (h : Stands within a) (he : e.nest? within = some next) :
    ∃ b item, a.feed e = .ok (b, item) ∧ Stands next b := by
  by_cases hin : a.place = .inRecord
  · rw [Assembly.feed, if_pos hin]
    exact h.feed_inside hin he
  · rw [Assembly.feed, if_neg hin]
    exact ⟨_, _, rfl, h.feed_outside hin he⟩

/-! ## What is delivered -/

/-- What an event delivers, from the place before it to the place after it. -/
inductive Announces : Place → Option (Item String) → Place → Prop
  | nothing (place : Place) : Announces place none place
  | arrayOpens : Announces .outside (some .arrayStart) .inArray
  | recordOpens : Announces .inArray none .inRecord
  | recordCloses (text : String) : Announces .inRecord (some (.record text)) .inArray
  | arrayCloses : Announces .inArray (some .arrayEnd) .outside

theorem announces_feedRecord (hin : a.place = .inRecord) (h : a.feedRecord e = .ok (b, item)) :
    Announces a.place item b.place := by
  have hopen : ∀ bracket, (a.descend bracket).place = a.place := fun _ => (alike_separate a).place
  have hclose : ∀ bracket, Announces a.place (a.ascend bracket).2 (a.ascend bracket).1.place := by
    intro bracket
    rw [ascend]
    split
    · rw [hin]
      exact .recordCloses _
    · exact .nothing _
  cases e with
  | startObject | startArray =>
      obtain ⟨rfl, rfl⟩ := Prod.mk.inj (Except.ok.inj h)
      rw [hopen]
      exact .nothing _
  | endObject =>
      have hends := hclose "\x7d"
      rwa [Except.ok.inj h] at hends
  | endArray =>
      have hends := hclose "]"
      rwa [Except.ok.inj h] at hends
  | foreign name => cases h
  | _ =>
      obtain ⟨rfl, rfl⟩ := Prod.mk.inj (Except.ok.inj h)
      exact (alike_separate a).place ▸ .nothing _

theorem announces_feedOutside (a : Assembly) (e : Event) :
    Announces a.place (a.feedOutside e).2 (a.feedOutside e).1.place := by
  cases e with
  | startObject =>
      rw [feedOutside, Assembly.openObject]
      split
      · rename_i h
        rw [h.1]
        exact .recordOpens
      · exact .nothing _
  | startArray =>
      rw [feedOutside, Assembly.openArray]
      split
      · rename_i h
        rw [opensRecords, Bool.and_eq_true, decide_eq_true_eq] at h
        rw [h.1]
        exact .arrayOpens
      · exact .nothing _
  | endArray =>
      rw [feedOutside, Assembly.closeArray]
      split
      · rename_i h
        rw [show a.place = .inArray from h.1]
        exact .arrayCloses
      · exact .nothing _
  | _ => exact .nothing _

theorem announces_feed (h : a.feed e = .ok (b, item)) : Announces a.place item b.place := by
  by_cases hin : a.place = .inRecord
  · rw [Assembly.feed, if_pos hin] at h
    exact announces_feedRecord hin h
  · rw [Assembly.feed, if_neg hin] at h
    have hout := announces_feedOutside a e
    rwa [Except.ok.inj h] at hout

/-- Whole arrays of records, and where one is open the beginning of one more. -/
def Groups {α : Type} : Place → List (Item α) → Prop
  | .outside, items => ∃ arrays : List (List α), items = arrays.flatMap arrayItems
  | _, items => ∃ (arrays : List (List α)) (records : List α),
      items = arrays.flatMap arrayItems ++ .arrayStart :: records.map .record

theorem Announces.groups {p q : Place} (h : Announces p item q) {items : List (Item String)}
    (hitems : Groups p items) : Groups q (items ++ item.toList) := by
  cases h with
  | nothing => rwa [Option.toList_none, List.append_nil]
  | recordOpens => rwa [Option.toList_none, List.append_nil]
  | arrayOpens =>
      obtain ⟨arrays, rfl⟩ := hitems
      exact ⟨arrays, [], rfl⟩
  | recordCloses text =>
      obtain ⟨arrays, records, rfl⟩ := hitems
      refine ⟨arrays, records ++ [text], ?_⟩
      simp
  | arrayCloses =>
      obtain ⟨arrays, records, rfl⟩ := hitems
      refine ⟨arrays ++ [records], ?_⟩
      simp [arrayItems]

/-- A record is delivered where one is left, and nowhere else. -/
theorem Announces.record_iff {p q : Place} (h : Announces p item q) :
    (item.toList.filterMap Item.record?).length
      = if p = .inRecord ∧ q ≠ .inRecord then 1 else 0 := by
  cases h with
  | nothing place => simp
  | _ => rfl

theorem feedAll_groups {es : List Event} {front items : List (Item String)}
    (hfront : Groups a.place front) (h : a.feedAll es = .ok (items, b)) :
    Groups b.place (front ++ items) := by
  induction es generalizing a front items with
  | nil =>
      obtain ⟨rfl, rfl⟩ := Prod.mk.inj (Except.ok.inj h)
      rwa [List.append_nil]
  | cons e es ih =>
      obtain ⟨c, item, more, he, hes, rfl⟩ := feedAll_cons_ok h
      rw [← List.append_assoc]
      exact ih ((announces_feed he).groups hfront) hes

/-! ## Many events -/

/-- Events that close nothing but what is open are taken, and deliver a record wherever they close
one. -/
theorem Stands.feedAll {es : List Event} (h : Stands within a)
    (hes : es.foldlM Event.nest? within = some next) : ∃ items b,
      a.feedAll es = .ok (items, b) ∧ Stands next b ∧
        (items.filterMap Item.record?).length = recordsClosed within es := by
  induction es generalizing a within with
  | nil =>
      obtain rfl := Option.some.inj hes
      exact ⟨[], a, rfl, h, rfl⟩
  | cons e es ih =>
      rw [List.foldlM_cons] at hes
      obtain ⟨after, he, hes⟩ := Option.bind_eq_some_iff.mp hes
      obtain ⟨b, item, hfeed, hb⟩ := h.feed he
      obtain ⟨more, c, hmore, hc, hcount⟩ := ih hb hes
      refine ⟨item.toList ++ more, c, feedAll_cons hfeed hmore, hc, ?_⟩
      rw [List.filterMap_append, List.length_append, hcount, (announces_feed hfeed).record_iff,
        recordsClosed, he]
      simp only [ne_eq, h.inRecord_iff, hb.inRecord_iff]

/-- What holds of an assembly that was fed the first events of a document. -/
structure Knows (a : Assembly) (within : List Container) : Prop where
  /-- It counts the open containers. -/
  depth : a.depth = within.length
  /-- It tells whether one of them is a record. -/
  inRecord : a.place = .inRecord ↔ InRecord within
  /-- It has a flag for each open container of a record, so a flag is there to be read. -/
  flags : a.place = .inRecord →
    a.empties ≠ [] ∧ (a.empties.length : Int) = a.depth - a.arrayDepth

theorem Stands.knows (h : Stands within a) : a.Knows within :=
  ⟨h.depth_eq, h.inRecord_iff, h.empties⟩

/-- The first events of a document are taken. What they deliver is how the document's whole arrays
of records begin, with as many records as the events have closed. -/
theorem feedAll_prefix {doc : Json} {es : List Event} (hes : es <+: Event.ofJson doc) :
    ∃ within items a, Event.open? es = some within ∧ feedAll {} es = .ok (items, a) ∧
      a.Knows within ∧ Groups a.place items ∧
      (items.filterMap Item.record?).length = recordsClosed [] es ∧
      ∃ arrays : List (List String),
        itemsFrom {} (Event.ofJson doc) = (arrays.flatMap arrayItems, none) ∧
        items <+: arrays.flatMap arrayItems := by
  have hfresh : Groups ({} : Assembly).place ([] : List (Item String)) := ⟨[], rfl⟩
  obtain ⟨within, hwithin⟩ := Event.open_of_prefix hes
  obtain ⟨items, a, hfeed, hstands, hcount⟩ := stands_fresh.feedAll hwithin
  obtain ⟨whole, c, hall, hend, -⟩ := stands_fresh.feedAll (Event.nest_ofJson doc [])
  have hwhole := feedAll_groups hfresh hall
  rw [hend.place_of_nil] at hwhole
  obtain ⟨arrays, rfl⟩ := hwhole
  refine ⟨within, items, a, hwithin, hfeed, hstands.knows, feedAll_groups hfresh hfeed, hcount,
    arrays, itemsFrom_of_feedAll hall, ?_⟩
  obtain ⟨more, hmore⟩ := hes
  rw [← hmore] at hall
  obtain ⟨first, _, rest, hfirst, -, hitems⟩ := feedAll_append_ok hall
  obtain ⟨rfl, -⟩ := Prod.mk.inj (Except.ok.inj (hfeed.symm.trans hfirst))
  exact ⟨rest, hitems.symm⟩

end Assembly

end Staging.Page
