import Staging.Files
import Staging.Page.Record
import Staging.Session

/-!
# Reading pages

A page delivers its items up to its end or up to the first fault. The text of each record is shown
at the lowest level and then read as a value; whoever reads the page visits one item after the
other, so what a visit does comes before the rest of the page is looked at.
-/

namespace Staging.Page

/-- What a page delivers: its items, and why there are no more, unless the page is complete. -/
structure Content where
  items : List (Item String)
  failure : Option Failure := none

/-- The failure that a break means in the page at a path. -/
def Break.failure (path : String) : Break → Failure
  | .malformed => .page (.malformed path)
  | .undecodable fault => .undecodable fault

/-- What the page at a path delivers. -/
def Content.ofOctets (path : String) (octets : List UInt8) : Content :=
  let (events, broken) := events octets
  match itemsFrom {} events with
  | (items, some fault) => ⟨items, some (.page fault)⟩
  | (items, none) => ⟨items, broken.map (Break.failure path)⟩

/-! ## Delivery -/

/-- The channel of the records about pages. -/
def channel : String := "jsonstage.ingest.json_processor"

variable {σ β : Type}

/-- An item with its record read. -/
def receive : Item String → Run σ (Item Json)
  | .arrayStart => return .arrayStart
  | .arrayEnd => return .arrayEnd
  | .record text => do
    Run.log channel Log.Level.trace "New record parsed" [("record", .str text)]
    return .record (← liftExcept (readRecord text))

/-- Visits the items of a content in turn. -/
def Content.visit (c : Content) (state : β) (visit : β → Item Json → Run σ β) : Run σ β := do
  let state ← c.items.foldlM (fun state item => do visit state (← receive item)) state
  match c.failure with
  | none => return state
  | some failure => throw failure

/-- Reads the page at a path and visits its items in turn. -/
def read (files : Directory) (path : String) (state : β) (visit : β → Item Json → Run σ β) :
    Run σ β :=
  match files path with
  | .missing => throw (.page (.missing path))
  | .folder => throw (.page (.folder path))
  | .file octets => do
    Run.note (.opened path)
    (Content.ofOctets path octets).visit state visit

end Staging.Page
