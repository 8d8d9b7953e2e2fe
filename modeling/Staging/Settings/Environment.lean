import Staging.Json.Parser
import Staging.Settings.Basic
import Staging.Text.Cased

/-!
# Settings from the environment

A variable whose name is that of a setting after a fixed lead, in any mixture of cases, overrides
the setting. Lists are given as JSON; a text that is not JSON is refused before any text that is not
of its setting's type.
-/

namespace Staging.Settings

open Text Number

/-- Why an environment gives no settings. -/
inductive EnvironmentFault
  | notJson (field : String)
  | wrongType (field : String)
  deriving DecidableEq, Repr

/-- What the variables of settings begin with. -/
def variableLead : String := "jsonstage_"

/-- The text of the last variable for a setting. -/
def textOf? (environment : List (String × String)) (field : String) : Option String :=
  (environment.reverse.find? fun v => lowerAll v.1 == variableLead ++ field).map (·.2)

/-! ## Texts of each type -/

/-- Whether two underscores stand side by side. -/
def hasDoubleUnderscore : List Char → Bool
  | '_' :: '_' :: _ => true
  | _ :: rest => hasDoubleUnderscore rest
  | [] => false

/-- A text without the underscores in it, which must stand neither at its ends nor side by side. -/
def withoutUnderscores (s : List Char) : List Char :=
  if s.head? = some '_' || s.getLast? = some '_' || hasDoubleUnderscore s then s
  else s.filter (· != '_')

/-- What may follow leading zeros, and begin a number without any. -/
def beginsNumber (c : Char) : Bool := c == '-' || c.isDigit

/-- What follows a zero, `last`, and more zeros. Underscores count as zeros here. The last zero
stays where no digit follows. -/
def afterZeros (last : Char) : List Char → Option (List Char)
  | [] => some [last]
  | c :: rest =>
    if c = '0' ∨ c = '_' then afterZeros c rest
    else if c = '.' then some (last :: c :: rest)
    else if beginsNumber c then some (c :: rest)
    else none

/-- A number without leading zeros. -/
def withoutLeadingZeros? : List Char → Option (List Char)
  | [] => none
  | c :: rest =>
    if c = '0' then afterZeros c rest
    else if beginsNumber c then some (c :: rest)
    else none

/-- A number without its decimal fraction, if that is zeros only. -/
def withoutZeroFraction (s : List Char) : List Char :=
  let fraction := (s.dropWhile (· != '.')).drop 1
  if !fraction.isEmpty && fraction.all (· == '0') then s.takeWhile (· != '.') else s

/-- An integer in ASCII digits, with neither a plus nor leading zeros. -/
def plainInteger? (s : List Char) : Option Int := do
  let (negative, unsigned) := if s.head? = some '-' then (true, s.drop 1) else (false, s)
  let (digits, rest) ← Json.takeWhole? unsigned
  if rest.isEmpty && digits.length ≤ maxDigits then
    let n := ofDigits (Json.digitValues digits)
    return if negative then -(n : Int) else n
  else none

/-- An integer in a free form: blanks around it, a sign, leading zeros and a fraction of zeros are
allowed, and underscores between its digits. A minus may also follow the leading zeros. -/
def readInteger? (text : String) : Option Int := do
  let (negative, body) := sign (trimBy isMargin text.toList)
  if body.head? = some '-' then none
  else
    let significant ← withoutLeadingZeros? body
    let signed := if negative then '-' :: significant else significant
    plainInteger? (withoutUnderscores (withoutZeroFraction signed))

/-- A floating point number in ASCII characters, without blanks or underscores. -/
def plainNumber? (s : List Char) : Option Double :=
  if s.all fun c => 0x20 < c.toNat && c.toNat < 0x80 && c != '_' then
    (readDouble (String.ofList s)).toOption
  else none

/-- A floating point number, with blanks around it or underscores within it, but not both. -/
def readNumber? (text : String) : Option Double :=
  plainNumber? (trimBy isMargin text.toList) <|> plainNumber? (withoutUnderscores text.toList)

/-- The words for yes and no. -/
def readFlag? (text : String) : Option Bool :=
  let word := String.ofList (text.toList.map Char.toLower)
  if ["1", "on", "t", "true", "y", "yes"].contains word then some true
  else if ["0", "off", "f", "false", "n", "no"].contains word then some false
  else none

/-- What the text of a variable says about its setting. -/
def Field.read (f : Field) (text : String) : Except EnvironmentFault Json :=
  let typed := fun (v : Option Json) => match v with
    | some v => Except.ok v
    | none => .error (.wrongType f.name)
  match f.kind with
  | .text => .ok (.str text)
  | .optionalText => .ok (.str text)
  | .integer => typed ((readInteger? text).map .int)
  | .number => typed ((readNumber? text).map .float)
  | .flag => typed ((readFlag? text).map .bool)
  | .texts => match Json.parse text with
    | .ok v => .ok v
    | .error _ => .error (.notJson f.name)

/-- Settings with what the environment says about one of them. A null says nothing. -/
def Field.apply (f : Field) (s : Settings) (text : String) : Except EnvironmentFault Settings := do
  match ← f.read text with
  | .null => return s
  | v => match f.set s v with
    | some s => return s
    | none => throw (.wrongType f.name)

/-! ## The whole environment -/

/-- The variables that concern settings. -/
def given (environment : List (String × String)) : List (Field × String) :=
  fields.filterMap fun f => (textOf? environment f.name).map (f, ·)

/-- The first list whose text is not JSON. -/
def firstNotJson? (texts : List (Field × String)) : Option String :=
  (texts.find? fun (f, text) => match f.read text with
    | .error (.notJson _) => true
    | _ => false).map (·.1.name)

/-- The settings of an environment. -/
def ofEnvironment (environment : List (String × String)) : Except EnvironmentFault Settings :=
  let texts := given environment
  match firstNotJson? texts with
  | some field => .error (.notJson field)
  | none => texts.foldlM (fun s (f, text) => f.apply s text) {}

end Staging.Settings
