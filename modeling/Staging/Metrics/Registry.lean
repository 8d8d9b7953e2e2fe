import Staging.Failure
import Staging.Json.Numeric
import Staging.Metrics.Series
import Staging.Number.Notation

/-!
# The text format of metrics

Totals of all series in order of first use, and their lines in the text exposition format: for each
metric its help and type, then a line for each sample, labels sorted by name.
-/

namespace Staging.Metrics

/-- What a series has come to. -/
inductive Total
  | counter (sum : Float)
  /-- The sum of all durations, and how many fell into each bucket; the last has no bound. -/
  | durations (sum : Float) (buckets : List Nat)

/-- The totals of the series that were touched, in order of first use. -/
abbrev Registry := List (Series × Total)

/-- One duration more in the first bucket that holds it. -/
def countBucket (amount : Float) : List Float → List Nat → List Nat
  | _, [] => []
  | [], n :: rest => (if amount ≤ 1.0 / 0.0 then n + 1 else n) :: rest
  | bound :: bounds, n :: rest =>
    if amount ≤ bound then (n + 1) :: rest else n :: countBucket amount bounds rest

/-- The total of a series before anything was added. -/
def Total.start (m : Metric) : Total :=
  match m.bounds? with
  | none => .counter 0.0
  | some bounds => .durations 0.0 (List.replicate (bounds.length + 1) 0)

/-- Adds an amount. -/
def Total.add (m : Metric) (t : Total) (amount : Float) : Total :=
  match t with
  | .counter sum => .counter (sum + amount)
  | .durations sum buckets =>
    .durations (sum + amount) (countBucket amount (m.bounds?.getD []) buckets)

/-- Adds an amount to a series. -/
def Registry.add : Registry → Series → Float → Registry
  | [], s, amount => [(s, (Total.start s.metric).add s.metric amount)]
  | (s', t) :: rest, s, amount =>
    if s' = s then (s', t.add s.metric amount) :: rest else (s', t) :: add rest s amount

/-- The series of a metric with these labels, in any order. -/
def series? (m : Metric) (labels : List (String × String)) : Except Failure Series :=
  if labels.isEmpty then .error .missingLabels
  else if labels.length = m.labelNames.length then
    match m.labelNames.mapM (labels.lookup ·) with
    | some values => .ok ⟨m, values⟩
    | none => .error .wrongLabels
  else .error .wrongLabels

/-- Adds a number to a series, but nothing negative to a counter. As totals are doubles, an integer
must not be too large for one. -/
def Registry.bump (r : Registry) (s : Series) (amount : Json) : Except Failure Registry :=
  if s.metric.bounds?.isNone && amount.isBelowZero then .error .negativeIncrement
  else match amount.toDouble with
    | .ok x => .ok (r.add s x.toFloat)
    | .error fault => .error (.number fault)

/-! ## Lines -/

/-- The greatest number of digits before the point that are written without an exponent. -/
def positionalDigits : Nat := 6

/-- An exponent in two digits at least. -/
def exponentDigits (n : Nat) : List Char :=
  if n < 10 then '0' :: Nat.toDigits 10 n else Nat.toDigits 10 n

/-- A sample's value: as a double is written, but with an exponent from a million on. -/
def numberText (x : Double) : String :=
  if x.isNaN then "NaN"
  else if x.isInfinite then (if x.negative then "-Inf" else "+Inf")
  else
    let s := x.text.toList
    let (whole, rest) := (s.takeWhile (· != '.'), s.dropWhile (· != '.'))
    match whole, rest with
    | first :: more, _ :: fraction =>
      if !x.negative && positionalDigits < whole.length then
        let mantissa := first :: '.' :: more ++ fraction
        let kept := (mantissa.reverse.dropWhile fun c => c == '0' || c == '.').reverse
        String.ofList (kept ++ ['e', '+'] ++ exponentDigits (whole.length - 1))
      else x.text
    | _, _ => x.text

def floatText (x : Float) : String := numberText (Double.ofFloat x)

/-- A label's value between its quotes. -/
def labelChar (c : Char) : List Char :=
  if c = '\\' then ['\\', '\\']
  else if c = '\n' then ['\\', 'n']
  else if c = '\x22' then ['\\', '\x22']
  else [c]

def labelText (label : String × String) : String :=
  label.1 ++ "=\"" ++ String.ofList (label.2.toList.flatMap labelChar) ++ "\""

/-- The line of a sample. -/
def sampleLine (name : String) (labels : List (String × String)) (value : String) : String :=
  name ++ "\x7b" ++ ",".intercalate (labels.map labelText) ++ "\x7d " ++ value

/-- The lines of the buckets, each counting all durations up to its bound. -/
def bucketLines (s : Series) (seen : Nat) : List Float → List Nat → List String
  | _, [] => []
  | bounds, n :: rest =>
    let bound := match bounds with
      | [] => "+Inf"
      | b :: _ => floatText b
    sampleLine (s.metric.exposedName ++ "_bucket") (("le", bound) :: s.labels)
        (floatText (seen + n).toFloat)
      :: bucketLines s (seen + n) bounds.tail rest

/-- The lines of a series. -/
def seriesLines (s : Series) : Total → List String
  | .counter sum => [sampleLine s.metric.exposedName s.labels (floatText sum)]
  | .durations sum buckets =>
    bucketLines s 0 (s.metric.bounds?.getD []) buckets ++
      [sampleLine (s.metric.exposedName ++ "_count") s.labels
          (floatText (buckets.foldl (· + ·) 0).toFloat),
        sampleLine (s.metric.exposedName ++ "_sum") s.labels (floatText sum)]

/-- The lines of a metric. -/
def metricLines (r : Registry) (m : Metric) : List String :=
  ("# HELP " ++ m.exposedName ++ " " ++ m.help)
    :: ("# TYPE " ++ m.exposedName ++ (if m.bounds?.isSome then " histogram" else " counter"))
    :: (r.filter (·.1.metric == m)).flatMap fun (s, t) => seriesLines s t

/-- The lines of all metrics. -/
def Registry.lines (r : Registry) : List String := Metric.all.flatMap (metricLines r)

end Staging.Metrics
