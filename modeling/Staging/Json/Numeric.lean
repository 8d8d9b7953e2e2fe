import Staging.Json.Basic
import Staging.Number.Reading

/-!
# Values as numbers

How a value of any kind is taken as an integer or as a double: booleans count as zero and one,
doubles lose their fraction, and strings are read.
-/

namespace Staging.Json

open Number

/-- The value as an integer. -/
def toInteger : Json → Except Fault Int
  | .null => .ok 0
  | .bool b => .ok (if b then 1 else 0)
  | .int n => .ok n
  | .float x =>
    if x.isNaN then .error .nanToInteger
    else if x.isInfinite then .error .infinityToInteger
    else .ok x.truncate
  | .str s => readInt s
  | .arr _ => .error (.containerAsInteger false)
  | .obj _ => .error (.containerAsInteger true)

/-- The value as a double. -/
def toDouble : Json → Except Fault Double
  | .null => .ok .zero
  | .bool b => .ok (if b then .ofDecimal false 1 0 else .zero)
  | .int n => match Double.ofInt? n with
    | some x => .ok x
    | none => .error .integerTooLarge
  | .float x => .ok x
  | .str s => readDouble s
  | .arr _ => .error (.containerAsDouble false)
  | .obj _ => .error (.containerAsDouble true)

/-- Whether the value is a number below zero. -/
def isBelowZero : Json → Bool
  | .int n => n < 0
  | .float x => !x.isNaN && !x.isZero && x.negative
  | _ => false

end Staging.Json
