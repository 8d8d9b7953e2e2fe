import Staging.Json.Escape
import Staging.Json.Plain
import Staging.Page.Token

/-!
# Events of a page

The structure of a page as a sequence of events. Tokens become events as long as they come in an
order that the grammar allows; commas and colons are only checked. The events before the first fault
are delivered, and then the fault.
-/

namespace Staging.Page

open Text

/-- What a page is made of, in reading order. -/
inductive Event
  | startObject
  | endObject
  | startArray
  | endArray
  /-- The name of a member, before its value. -/
  | key (name : String)
  | null
  | boolean (b : Bool)
  | text (s : String)
  /-- A number; any other value is taken by its plain text. -/
  | number (value : Json)
  /-- An event of no known sort. -/
  | foreign (name : String)
  deriving Inhabited

/-- The text of a scalar in a record. -/
def Event.scalarText : Event → String
  | .null => "null"
  | .boolean b => if b then "true" else "false"
  | .text s => "\"" ++ Json.escapeText s ++ "\""
  | .number v => v.plain
  | _ => ""

/-! ## Grammar -/

/-- Why a page breaks off. -/
inductive Break
  | malformed
  /-- A string is no text. -/
  | undecodable (fault : Utf8.Fault)
  deriving DecidableEq, Repr

inductive Container
  | object
  | array
  deriving DecidableEq, Repr

/-- What may come next. -/
inductive Expected
  | value
  /-- The first item of an array, or its end. -/
  | firstItem
  /-- The first name of an object, or its end. -/
  | firstName
  | name
  | colon
  /-- A comma, or the end of the container. -/
  | comma
  | nothing
  deriving DecidableEq, Repr

/-- A place between two tokens: the open containers, innermost first, and what may come next. -/
structure Cursor where
  within : List Container := []
  expected : Expected := .value
  deriving DecidableEq, Repr

namespace Cursor

/-- The place after a value. -/
def afterValue (within : List Container) : Cursor :=
  ⟨within, if within.isEmpty then .nothing else .comma⟩

/-- The text of a string. -/
def decoded (content : List UInt8) : Except Break String :=
  match Utf8.decode content with
  | .ok s => .ok (String.ofList s)
  | .error fault => .error (.undecodable fault)

/-- A value that begins with a token. -/
def stepValue (within : List Container) : Token → Except Break (Event × Cursor)
  | .openObject => .ok (.startObject, ⟨.object :: within, .firstName⟩)
  | .openArray => .ok (.startArray, ⟨.array :: within, .firstItem⟩)
  | .null => .ok (.null, afterValue within)
  | .boolean b => .ok (.boolean b, afterValue within)
  | .number v => .ok (.number v, afterValue within)
  | .string content => do return (.text (← decoded content), afterValue within)
  | _ => .error .malformed

/-- A member's name. -/
def stepName (within : List Container) : Token → Except Break (Event × Cursor)
  | .string content => do return (.key (← decoded content), ⟨within, .colon⟩)
  | _ => .error .malformed

/-- The place after a token, and the event that the token makes, if it makes one. -/
def step (c : Cursor) (t : Token) : Except Break (Option Event × Cursor) :=
  let made := fun (r : Event × Cursor) => (some r.1, r.2)
  match c.expected, c.within, t with
  | .firstItem, .array :: outer, .closeArray => .ok (some .endArray, afterValue outer)
  | .comma, .array :: outer, .closeArray => .ok (some .endArray, afterValue outer)
  | .firstName, .object :: outer, .closeObject => .ok (some .endObject, afterValue outer)
  | .comma, .object :: outer, .closeObject => .ok (some .endObject, afterValue outer)
  | .comma, .array :: outer, .comma => .ok (none, ⟨.array :: outer, .value⟩)
  | .comma, .object :: outer, .comma => .ok (none, ⟨.object :: outer, .name⟩)
  | .colon, within, .colon => .ok (none, ⟨within, .value⟩)
  | .value, within, t => (stepValue within t).map made
  | .firstItem, within, t => (stepValue within t).map made
  | .name, within, t => (stepName within t).map made
  | .firstName, within, t => (stepName within t).map made
  | _, _, _ => .error .malformed

end Cursor

/-- Whether a page may end with this text after its value: with nothing, or with a string that never
ends, as no token too many comes of it. -/
def isEnding (s : List Char) : Bool := s.isEmpty || isUnclosedString s

/-- The events of what follows a place, and why they break off, if they do. Every token spends one
of the steps. -/
def eventsFrom : Nat → Cursor → List Char → List Event × Option Break
  | 0, _, _ => ([], some .malformed)
  | steps + 1, c, s =>
    let s := skipSpace s
    if c.expected = .nothing then ([], if isEnding s then none else some .malformed)
    else
      match scan? s with
      | none => ([], some .malformed)
      | some (t, rest) =>
        match c.step t with
        | .error b => ([], some b)
        | .ok (event, c) =>
          let (events, b) := eventsFrom steps c rest
          (event.toList ++ events, b)

/-- The events of a page. As each token takes an octet at least, there are steps enough. -/
def events (octets : List UInt8) : List Event × Option Break :=
  eventsFrom (octets.length + 1) {} (octets.map fun o => Char.ofNat o.toNat)

end Staging.Page
