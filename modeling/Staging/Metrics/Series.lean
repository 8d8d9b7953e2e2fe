/-!
# Metrics

What a run counts and times. A metric has label names, and every combination of values for them that
was touched is a series of its own. Counters add up amounts; durations are sorted into buckets by
upper bounds.
-/

namespace Staging

/-- The metrics, in the order in which they are shown. -/
inductive Metric
  | recordsProcessed
  | insertStatements
  | insertedRows
  | valueSubstitutions
  | tablesStaged
  | passDuration
  | sqlDuration
  deriving DecidableEq, Repr

namespace Metric

def all : List Metric :=
  [.recordsProcessed, .insertStatements, .insertedRows, .valueSubstitutions, .tablesStaged,
    .passDuration, .sqlDuration]

/-- A short name. -/
def name : Metric → String
  | .recordsProcessed => "records_processed"
  | .insertStatements => "insert_statements"
  | .insertedRows => "inserted_rows"
  | .valueSubstitutions => "value_substitutions"
  | .tablesStaged => "tables_staged"
  | .passDuration => "stage_pass_durations"
  | .sqlDuration => "sql_executions"

def ofName? (s : String) : Option Metric := all.find? (·.name == s)

/-- The name in the text format. -/
def exposedName : Metric → String
  | .recordsProcessed => "records_processed_total"
  | .insertStatements => "insert_statements_total"
  | .insertedRows => "inserted_rows_total"
  | .valueSubstitutions => "value_substitutions_total"
  | .tablesStaged => "tables_staged_total"
  | .passDuration => "stage_pass_duration_seconds"
  | .sqlDuration => "sql_execution_duration_seconds"

def help : Metric → String
  | .recordsProcessed => "Total number of JSON records parsed from page files"
  | .insertStatements => "Total number of batched INSERT statements executed"
  | .insertedRows => "Total number of rows written into loading tables"
  | .valueSubstitutions => "Total number of values replaced because of database limits"
  | .tablesStaged => "Total number of tables processed by the stager"
  | .passDuration => "Time to run one staging pass over all pages of a table"
  | .sqlDuration => "SQL statement execution time"

/-- The label names, sorted. -/
def labelNames : Metric → List String
  | .recordsProcessed => ["stage_pass", "table"]
  | .insertStatements => ["table"]
  | .insertedRows => ["table"]
  | .valueSubstitutions => ["reason", "table"]
  | .tablesStaged => ["status"]
  | .passDuration => ["stage_pass"]
  | .sqlDuration => ["statement"]

/-- The upper bounds of the buckets of a duration; a counter has none. -/
def bounds? : Metric → Option (List Float)
  | .passDuration => some [0.1, 0.5, 1.0, 5.0, 10.0, 30.0, 60.0, 300.0, 900.0]
  | .sqlDuration => some [0.001, 0.01, 0.05, 0.1, 0.5, 1.0, 5.0, 30.0]
  | _ => none

end Metric

/-! ## Series -/

/-- A metric with a value for each of its labels, in order of their names. -/
structure Series where
  metric : Metric
  values : List String
  deriving DecidableEq, Repr

namespace Series

/-- The labels with their values. -/
def labels (s : Series) : List (String × String) := s.metric.labelNames.zip s.values

def recordsProcessed (table pass : String) : Series := ⟨.recordsProcessed, [pass, table]⟩

def insertStatements (table : String) : Series := ⟨.insertStatements, [table]⟩

def insertedRows (table : String) : Series := ⟨.insertedRows, [table]⟩

def valueSubstitutions (table reason : String) : Series := ⟨.valueSubstitutions, [reason, table]⟩

def tablesStaged (status : String) : Series := ⟨.tablesStaged, [status]⟩

def passDuration (pass : String) : Series := ⟨.passDuration, [pass]⟩

def sqlDuration (statement : String) : Series := ⟨.sqlDuration, [statement]⟩

end Series

end Staging
