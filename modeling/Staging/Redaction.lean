import Staging.Json.Order
import Staging.Json.Pointer

/-!
# Redaction of personal data

A policy names the tables whose records are redacted and tells by a scalar's pointer whether it may
identify a person. Such scalars are replaced by the neutral value of their kind; the shape of a
record never changes.
-/

namespace Staging.Redaction

/-- The members that can hold personal data, at the top of a record and at any depth below. -/
def personalPaths : List String := ["/barcode", "/externalSystemId", "/personal", "/username"]

/-- Whether a pointer leads to `path` or below it. -/
def isAtOrBelow (path pointer : String) : Bool :=
  pointer == path || (path ++ "/").toList.isPrefixOf pointer.toList

/-- Whether the value at a pointer may identify a person. -/
def isPersonal (pointer : String) : Bool :=
  personalPaths.any (isAtOrBelow · pointer)

/-- The neutral value of a scalar's kind. -/
def neutral : Json → Json
  | .bool _ => .bool false
  | .int _ => .int 0
  | .float _ => .int 0
  | .str _ => .str ""
  | v => v

/-- Which tables are redacted, and which of their values. -/
structure Policy where
  tables : List String := []
  classifier : String → Bool := isPersonal

/-- Whether a table is redacted. -/
def Policy.isActive (p : Policy) (table : String) : Bool := p.tables.contains table

/-- What stands for the scalar at a pointer. -/
def Policy.redact (p : Policy) (pointer : String) (v : Json) : Json :=
  if p.classifier pointer then neutral v else v

/-- The policy, if it concerns a table. -/
def Policy.forTable (p : Policy) (table : String) : Option Policy :=
  if p.isActive table then some p else none

/-! ## Records -/

/-- The canonical form of a record, each of its scalars replaced by what `visit` returns for it. -/
def process {m : Type → Type} [Monad m] (visit : String → Json → m Json) (record : Json) : m Json :=
  record.canonical.walk visit ""

/-- The canonical form of a record, redacted if there is a policy. -/
def apply (policy : Option Policy) (record : Json) : Json :=
  match policy with
  | none => record.canonical
  | some p => Id.run (process (fun pointer v => pure (p.redact pointer v)) record)

end Staging.Redaction
