import Staging.Json.Parser
import Staging.Schema.Inference
import Staging.Settings.Environment
import Staging.Text.Quoted
import Staging.Text.Utf8

/-!
# Failures

Everything that can end a run, by cause. The failures of the staged data abort one table; all others
end the run.
-/

namespace Staging

/-- Why a page gives no further records. -/
inductive PageFault
  | missing (path : String)
  | folder (path : String)
  | malformed (path : String)
  | badRecord (complaint : Json.Complaint) (line column offset : Nat) (text : String)
  | unexpectedEvent (name : String)
  deriving DecidableEq, Repr

/-- How much of a record's text a message shows. -/
def shownLength : Nat := 200

def PageFault.message : PageFault → String
  | .missing path =>
    "Unable to read page file " ++ path ++ ": [Errno 2] No such file or directory: "
      ++ Text.quote path
  | .folder path =>
    "Unable to read page file " ++ path ++ ": [Errno 21] Is a directory: " ++ Text.quote path
  | .malformed path => "Malformed JSON in " ++ path ++ ": syntax"
  | .badRecord complaint line column offset text =>
    "Unable to parse record: " ++ complaint.message ++ ": line " ++ toString line ++ " column "
      ++ toString column ++ " (char " ++ toString offset ++ "): "
      ++ String.ofList (text.toList.take shownLength)
  | .unexpectedEvent name => "Unexpected parser event: " ++ name

/-- Why a run ends early. -/
inductive Failure
  | missingId (table : String)
  | unreadableCount (path : String)
  | page (fault : PageFault)
  | schema (fault : Schema.InferenceFault)
  | number (fault : Number.Fault)
  | undecodable (fault : Text.Utf8.Fault)
  | database (statement : Nat)
  | unsupportedDialect (name : String)
  | unknownLevel (name : String)
  | environment (fault : Settings.EnvironmentFault)
  | negativeIncrement
  | missingLabels
  | wrongLabels
  /-- The caller's own failure inside a transaction or a timed block. -/
  | caller (message : String)
  deriving DecidableEq, Repr

namespace Failure

/-- Whether the failure lies in the staged data, so that it aborts one table only. -/
def isStaging : Failure → Bool
  | .missingId _ | .unreadableCount _ | .page _ | .schema _ => true
  | _ => false

def message : Failure → String
  | .missingId table => table ++ ": record without \"" ++ idField ++ "\" field"
  | .unreadableCount path => "Unable to read page count from " ++ path
  | .page fault => fault.message
  | .schema fault => fault.message
  | .number fault => fault.message
  | .undecodable fault => fault.message
  | .database statement => "statement " ++ toString statement ++ " failed"
  | .unsupportedDialect name => "Unsupported database dialect: " ++ name
  | .unknownLevel name => "Unknown log level: " ++ name
  | .environment (.notJson field) => "error parsing value for field \"" ++ field ++ "\""
  | .environment (.wrongType field) => "invalid value for field \"" ++ field ++ "\""
  | .negativeIncrement => "Counters can only be incremented by non-negative amounts."
  | .missingLabels => "Incorrect label count"
  | .wrongLabels => "Incorrect label names"
  | .caller text => text

/-- The kind of failure, as log records show it. -/
def label : Failure → String
  | .missingId _ | .unreadableCount _ => "StagingError"
  | .page _ => "PageFormatError"
  | .schema _ => "SchemaInferenceError"
  | .number .infinityToInteger | .number .integerTooLarge => "OverflowError"
  | .number (.containerAsInteger _) | .number (.containerAsDouble _) => "TypeError"
  | .number _ | .unsupportedDialect _ | .unknownLevel _ => "ValueError"
  | .negativeIncrement | .missingLabels | .wrongLabels => "ValueError"
  | .undecodable _ => "UnicodeDecodeError"
  | .database _ => "DatabaseError"
  | .environment (.notJson _) => "SettingsError"
  | .environment (.wrongType _) => "ValidationError"
  | .caller _ => "RuntimeError"

end Failure

/-! ## Records from text -/

/-- Reads the text of one record. -/
def readRecord (text : String) : Except Failure Json :=
  match Json.parse text with
  | .ok v => .ok v
  | .error (.malformed complaint line column offset) =>
    .error (.page (.badRecord complaint line column offset text))
  | .error (.tooManyDigits count) => .error (.number (.tooManyDigits count))

end Staging
