import Staging.Page.Record
import Staging.Proofs.Json.Canonical
import Staging.Proofs.Json.RoundTrip
import Staging.Proofs.Schema.MemberOrder

/-!
# Documents as trees

What a page is read for, said of the whole document: the events of a tree in reading order, and the
records that it holds. A document that is an array holds one array of records, a document that is an
object one for each member whose value is an array; the records are the elements that are objects.
Names that repeat are settled at every depth of a record, so what is said of values that repeat no
name is said of every record (`unrepeated_of_recordArrays`).
-/

namespace Staging.Page

/-! ## Events of a tree -/

namespace Event

mutual

/-- The events of a value in reading order. -/
def ofJson : Json → List Event
  | .null => [.null]
  | .bool b => [.boolean b]
  | .int n => [.number (.int n)]
  | .float x => [.number (.float x)]
  | .str s => [.text s]
  | .arr items => .startArray :: (ofItems items ++ [.endArray])
  | .obj members => .startObject :: (ofMembers members ++ [.endObject])

def ofItems : List Json → List Event
  | [] => []
  | v :: items => ofJson v ++ ofItems items

def ofMembers : List (String × Json) → List Event
  | [] => []
  | (name, v) :: members => .key name :: (ofJson v ++ ofMembers members)

end

end Event

/-! ## Records of a tree -/

/-- The items of an array that are objects. -/
def objectsOf (items : List Json) : List Json := items.filter fun v => v.kind = .object

/-- The objects in the value of a member, if that is an array. -/
def memberObjects? : String × Json → Option (List Json)
  | (_, .arr items) => some (objectsOf items)
  | _ => none

/-- The arrays in a document that are looked at for records, each with its objects. -/
def objectArrays : Json → List (List Json)
  | .arr items => [objectsOf items]
  | .obj members => members.filterMap memberObjects?
  | _ => []

/-- The arrays of records in a document: the objects with their repeated names settled. -/
def recordArrays (doc : Json) : List (List Json) :=
  (objectArrays doc).map fun objects => objects.map Json.settled

/-- An array of records as items. -/
def arrayItems {α : Type} (records : List α) : List (Item α) :=
  .arrayStart :: (records.map .record ++ [.arrayEnd])

/-- What a document delivers. -/
def documentItems (doc : Json) : List (Item Json) :=
  (recordArrays doc).flatMap arrayItems

example : documentItems (.obj [("a", .int 1), ("b", .arr [.obj [], .null]), ("c", .arr [])])
    = [.arrayStart, .record (.obj []), .arrayEnd, .arrayStart, .arrayEnd] := rfl

/-! ## Items -/

/-- An item with its text read as a record. -/
def Item.parsed : Item String → Except Failure (Item Json)
  | .arrayStart => .ok .arrayStart
  | .record text => (readRecord text).map .record
  | .arrayEnd => .ok .arrayEnd

variable {α β : Type}

/-- An item with its record turned into another. -/
def Item.map (f : α → β) : Item α → Item β
  | .arrayStart => .arrayStart
  | .record r => .record (f r)
  | .arrayEnd => .arrayEnd

theorem mem_arrayItems {r : α} {records : List α} :
    .record r ∈ arrayItems records ↔ r ∈ records := by
  simp [arrayItems]

/-- The record that an item is, if it is one. -/
def Item.record? : Item α → Option α
  | .record r => some r
  | _ => none

theorem records_arrayItems (records : List α) :
    (arrayItems records).filterMap Item.record? = records := by
  have hrecords : (records.map Item.record).filterMap Item.record? = records := by
    rw [List.filterMap_map]
    exact List.filterMap_some
  rw [arrayItems, List.filterMap_cons_none rfl, List.filterMap_append, hrecords]
  exact List.append_nil records

/-- The records of a document are among what it delivers. -/
theorem records_documentItems (doc : Json) :
    (documentItems doc).filterMap Item.record? = (recordArrays doc).flatten := by
  rw [documentItems, List.filterMap_flatMap,
    List.flatMap_congr fun records _ => records_arrayItems records, List.flatMap_id']

theorem arrayItems_map (f : α → β) (records : List α) :
    arrayItems (records.map f) = (arrayItems records).map (Item.map f) := by
  simp only [arrayItems, List.map_cons, List.map_append, List.map_map, List.map_nil, Item.map]
  rfl

theorem flatMap_arrayItems_map (f : α → β) (arrays : List (List α)) :
    (arrays.map (List.map f)).flatMap arrayItems
      = (arrays.flatMap arrayItems).map (Item.map f) := by
  rw [List.flatMap_map, List.map_flatMap]
  exact List.flatMap_congr fun records _ => arrayItems_map f records

/-! ## Reading one after the other -/

section

variable {α β ε : Type} {f : α → Except ε β}

/-- What it takes to read a first one: it can be read, and so can all after it. -/
theorem mapM_cons_ok {x : α} {l : List α} {ys : List β} (h : (x :: l).mapM f = .ok ys) :
    ∃ y more, f x = .ok y ∧ l.mapM f = .ok more ∧ ys = y :: more := by
  rw [List.mapM_cons] at h
  cases hx : f x with
  | error e =>
      rw [hx] at h
      cases h
  | ok y =>
      cases hl : l.mapM f with
      | error e =>
          rw [hx, hl] at h
          cases h
      | ok more =>
          rw [hx, hl] at h
          exact ⟨y, more, rfl, rfl, (Except.ok.inj h).symm⟩

theorem mapM_prefix {l l' : List α} {ys : List β} (hl : l <+: l') (h : l'.mapM f = .ok ys) :
    ∃ zs, l.mapM f = .ok zs ∧ zs <+: ys := by
  induction l generalizing l' ys with
  | nil => exact ⟨[], rfl, List.nil_prefix⟩
  | cons x l ih =>
      obtain ⟨more, rfl⟩ := hl
      obtain ⟨y, rest, hx, hrest, rfl⟩ := mapM_cons_ok h
      obtain ⟨zs, hzs, hprefix⟩ := ih (List.prefix_append l more) hrest
      refine ⟨y :: zs, ?_, List.cons_prefix_cons.mpr ⟨rfl, hprefix⟩⟩
      rw [List.mapM_cons, hx, hzs]
      rfl

end

/-! ## Ranges -/

theorem inRange_of_mem {items : List Json} (h : Json.itemsInRange items = true) :
    ∀ v ∈ items, v.inRange = true := by
  induction items with
  | nil => exact fun v hv => absurd hv List.not_mem_nil
  | cons w items ih =>
      rw [Json.itemsInRange, Bool.and_eq_true] at h
      intro v hv
      rcases List.mem_cons.mp hv with rfl | hv
      · exact h.1
      · exact ih h.2 v hv

theorem inRange_of_member {members : List (String × Json)}
    (h : Json.membersInRange members = true) : ∀ m ∈ members, m.2.inRange = true := by
  induction members with
  | nil => exact fun m hm => absurd hm List.not_mem_nil
  | cons m members ih =>
      rw [Json.membersInRange, Bool.and_eq_true] at h
      intro m' hm
      rcases List.mem_cons.mp hm with rfl | hm
      · exact h.1
      · exact ih h.2 m' hm

theorem mem_objectArrays {doc : Json} {objects : List Json} (h : objects ∈ objectArrays doc) :
    ∃ items, objects = objectsOf items ∧ (doc.inRange = true → Json.itemsInRange items = true) := by
  cases doc with
  | arr items =>
      obtain rfl := List.mem_singleton.mp h
      exact ⟨items, rfl, fun hrange => hrange⟩
  | obj members =>
      obtain ⟨⟨name, value⟩, hmem, hvalue⟩ := List.mem_filterMap.mp h
      cases value with
      | arr items =>
          obtain rfl := Option.some.inj hvalue
          exact ⟨items, rfl, fun hrange => inRange_of_member hrange _ hmem⟩
      | _ => cases hvalue
  | _ => exact absurd h List.not_mem_nil

theorem inRange_of_objectArrays {doc : Json} (h : doc.inRange = true) :
    ∀ objects ∈ objectArrays doc, ∀ v ∈ objects, v.inRange = true := by
  intro objects hobjects v hv
  obtain ⟨items, rfl, hrange⟩ := mem_objectArrays hobjects
  exact inRange_of_mem (hrange h) v (List.mem_filter.mp hv).1

theorem object_of_mem {doc : Json} {objects : List Json} (hobjects : objects ∈ objectArrays doc)
    {v : Json} (hv : v ∈ objects) : ∃ members, v = .obj members := by
  obtain ⟨items, rfl, -⟩ := mem_objectArrays hobjects
  have hkind := (List.mem_filter.mp hv).2
  cases v with
  | obj members => exact ⟨members, rfl⟩
  | _ => cases hkind

/-! ## Records as they are delivered -/

/-- A record as pages deliver it: an object that repeats no name, with its numbers in range. -/
structure Delivered (record : Json) : Prop where
  object : ∃ members, record = .obj members ∧ (members.map Prod.fst).Nodup
  range : record.inRange = true

theorem membersInRange_of_forall {members : List (String × Json)}
    (h : ∀ m ∈ members, m.2.inRange = true) : Json.membersInRange members = true := by
  induction members with
  | nil => rfl
  | cons m members ih =>
      rw [Json.membersInRange, Bool.and_eq_true]
      exact ⟨h m List.mem_cons_self, ih fun m' hm => h m' (List.mem_cons_of_mem m hm)⟩

theorem membersInRange_settle {pairs : List (String × Json)}
    (h : Json.membersInRange pairs = true) : Json.membersInRange (Members.settle pairs) = true := by
  exact membersInRange_of_forall fun m hm => inRange_of_member h m (Members.mem_of_mem_settle hm)

mutual

theorem inRange_settled : ∀ v : Json, v.inRange = true → v.settled.inRange = true
  | .null, h | .bool _, h | .int _, h | .float _, h | .str _, h => h
  | .arr items, h => itemsInRange_settledItems items h
  | .obj members, h => membersInRange_settle (membersInRange_settledMembers members h)

theorem itemsInRange_settledItems : ∀ items : List Json, Json.itemsInRange items = true →
    Json.itemsInRange (Json.settledItems items) = true
  | [], _ => rfl
  | v :: items, h => by
    rw [Json.itemsInRange, Bool.and_eq_true] at h
    rw [Json.settledItems, Json.itemsInRange, Bool.and_eq_true]
    exact ⟨inRange_settled v h.1, itemsInRange_settledItems items h.2⟩

theorem membersInRange_settledMembers : ∀ members : List (String × Json),
    Json.membersInRange members = true →
      Json.membersInRange (Json.settledMembers members) = true
  | [], _ => rfl
  | (name, v) :: members, h => by
    rw [Json.membersInRange, Bool.and_eq_true] at h
    rw [Json.settledMembers, Json.membersInRange, Bool.and_eq_true]
    exact ⟨inRange_settled v h.1, membersInRange_settledMembers members h.2⟩

end

theorem eachMember_settle {P : List String → Prop} {pairs : List (String × Json)}
    (h : Json.EachMember P pairs) : Json.EachMember P (Members.settle pairs) := by
  rw [Json.eachMember_iff] at h ⊢
  exact fun m hm => h m (Members.mem_of_mem_settle hm)

mutual

theorem unrepeated_settled : ∀ v : Json, v.settled.Unrepeated
  | .null | .bool _ | .int _ | .float _ | .str _ => trivial
  | .arr items => unrepeated_settledItems items
  | .obj members => by
    refine ⟨?_, eachMember_settle (unrepeated_settledMembers members)⟩
    rw [Members.names_settle]
    exact Members.nodup_firstNames _

theorem unrepeated_settledItems : ∀ items : List Json,
    Json.EachItem List.Nodup (Json.settledItems items)
  | [] => trivial
  | v :: items => ⟨unrepeated_settled v, unrepeated_settledItems items⟩

theorem unrepeated_settledMembers : ∀ members : List (String × Json),
    Json.EachMember List.Nodup (Json.settledMembers members)
  | [] => trivial
  | (_, v) :: members => ⟨unrepeated_settled v, unrepeated_settledMembers members⟩

end

/-- The records of a document repeat no name at any depth, whatever the document does. -/
theorem unrepeated_of_recordArrays {doc : Json} :
    ∀ records ∈ recordArrays doc, ∀ r ∈ records, r.Unrepeated := by
  intro records hrecords r hr
  obtain ⟨objects, -, rfl⟩ := List.mem_map.mp hrecords
  obtain ⟨v, -, rfl⟩ := List.mem_map.mp hr
  exact unrepeated_settled v

/-- Whatever a document in range holds are records as pages deliver them. -/
theorem delivered_of_recordArrays {doc : Json} (h : doc.inRange = true) :
    ∀ records ∈ recordArrays doc, ∀ r ∈ records, Delivered r := by
  intro records hrecords r hr
  have hunrepeated := unrepeated_of_recordArrays records hrecords r hr
  obtain ⟨objects, hobjects, rfl⟩ := List.mem_map.mp hrecords
  obtain ⟨v, hv, rfl⟩ := List.mem_map.mp hr
  refine ⟨?_, inRange_settled v (inRange_of_objectArrays h objects hobjects v hv)⟩
  obtain ⟨members, rfl⟩ := object_of_mem hobjects hv
  exact ⟨_, rfl, hunrepeated.1⟩

end Staging.Page
