import Staging.Failure
import Staging.Page.Event

/-!
# Records of a page

The records are the objects in a page that is an array, or in the arrays that are direct members of
a page that is an object. Each is put together from its events as the text of an object without
spaces, so that only one record is held at a time; all else in a page is passed over.
-/

namespace Staging.Page

/-- What a page holds, as far as staging is concerned. -/
inductive Item (α : Type)
  | arrayStart
  | record (r : α)
  | arrayEnd
  deriving DecidableEq, Repr

/-- Where a place in a page lies. -/
inductive Place
  | outside
  | inArray
  | inRecord
  deriving DecidableEq, Repr

def Place.name : Place → String
  | .outside => "outside_array"
  | .inArray => "in_array"
  | .inRecord => "in_record"

/-- A record being put together, and the place in the page. -/
structure Assembly where
  place : Place := .outside
  /-- How many containers are open. -/
  depth : Int := 0
  rootIsObject : Bool := false
  /-- How many containers are open around the elements of the array of records. -/
  arrayDepth : Int := 0
  text : String := ""
  /-- For each open container of the record, innermost first, whether nothing was put into it yet.
  -/
  empties : List Bool := []
  /-- Whether a member's name was put last. -/
  afterKey : Bool := false
  deriving DecidableEq, Repr

namespace Assembly

/-- What must stand before the next item or name is put: a comma unless it is the first in its
container or a member's value. -/
def separate (a : Assembly) : Assembly :=
  if a.afterKey then { a with afterKey := false }
  else match a.empties with
    | true :: outer => { a with empties := false :: outer }
    | _ => { a with text := a.text ++ "," }

def put (a : Assembly) (s : String) : Assembly := { a with text := a.text ++ s }

/-- Opens a container of the record. -/
def descend (a : Assembly) (bracket : String) : Assembly :=
  let a := a.separate.put bracket
  { a with empties := true :: a.empties, depth := a.depth + 1 }

/-- Closes a container of the record, or the record itself. -/
def ascend (a : Assembly) (bracket : String) : Assembly × Option (Item String) :=
  let a := a.put bracket
  let a := { a with empties := a.empties.tail, depth := a.depth - 1 }
  if a.depth = a.arrayDepth then ({ a with text := "", place := .inArray }, some (.record a.text))
  else (a, none)

/-- An event within a record. -/
def feedRecord (a : Assembly) : Event → Except PageFault (Assembly × Option (Item String))
  | .startObject => .ok (a.descend "\x7b", none)
  | .startArray => .ok (a.descend "[", none)
  | .endObject => .ok (a.ascend "\x7d")
  | .endArray => .ok (a.ascend "]")
  | .key name =>
    .ok ({ a.separate.put ("\"" ++ Json.escapeText name ++ "\":") with afterKey := true }, none)
  | .foreign name => .error (.unexpectedEvent name)
  | scalar => .ok (a.separate.put scalar.scalarText, none)

/-! ## Outside records -/

/-- Whether an array that opens here holds records. -/
def opensRecords (a : Assembly) : Bool :=
  a.place = .outside && (a.depth = 0 || (a.depth = 1 && a.rootIsObject))

/-- One more container is open. -/
def deeper (a : Assembly) : Assembly := { a with depth := a.depth + 1 }

/-- An object opens, which is a record if it is an element of the array. -/
def openObject (a : Assembly) : Assembly :=
  let a := { a with rootIsObject := a.rootIsObject || a.depth = 0 }
  if a.place = .inArray ∧ a.depth = a.arrayDepth then
    { a.deeper with place := .inRecord, text := "\x7b", empties := [true], afterKey := false }
  else a.deeper

/-- An array opens. -/
def openArray (a : Assembly) : Assembly × Option (Item String) :=
  if a.opensRecords then
    ({ a.deeper with arrayDepth := a.depth + 1, place := .inArray }, some .arrayStart)
  else (a.deeper, none)

/-- One container less is open. -/
def shallower (a : Assembly) : Assembly := { a with depth := a.depth - 1 }

/-- An array closes. -/
def closeArray (a : Assembly) : Assembly × Option (Item String) :=
  let a := a.shallower
  if a.place = .inArray ∧ a.depth = a.arrayDepth - 1 then
    ({ a with place := .outside }, some .arrayEnd)
  else (a, none)

/-- An event outside the records. -/
def feedOutside (a : Assembly) : Event → Assembly × Option (Item String)
  | .startObject => (a.openObject, none)
  | .startArray => a.openArray
  | .endObject => (a.shallower, none)
  | .endArray => a.closeArray
  | _ => (a, none)

/-- The next event of the page. -/
def feed (a : Assembly) (e : Event) : Except PageFault (Assembly × Option (Item String)) :=
  if a.place = .inRecord then a.feedRecord e else .ok (a.feedOutside e)

end Assembly

/-- The items that some events complete, and the fault that ends them, if there is one. -/
def itemsFrom (a : Assembly) : List Event → List (Item String) × Option PageFault
  | [] => ([], none)
  | e :: rest =>
    match a.feed e with
    | .error fault => ([], some fault)
    | .ok (a, item) =>
      let (items, fault) := itemsFrom a rest
      (item.toList ++ items, fault)

end Staging.Page
