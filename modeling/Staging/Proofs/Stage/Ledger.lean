import Staging.Proofs.Session
import Staging.Proofs.Sql.Insert
import Staging.Sql.Row

/-!
# The ledger of a table

What a journal says of the records of one table: the INSERT statements that were executed, and the
totals that count statements, rows and records. Journals that are joined have ledgers that add up,
so a run's ledger is the sum of what its steps enter. Most steps enter nothing (`isUnbooked`).
-/

namespace Staging.Stage

/-- Whether a statement inserts rows. -/
def isInsert (sql : String) : Bool := "INSERT ".toList.isPrefixOf sql.toList

/-- The INSERT statements that were executed. -/
def insertsOf (journal : List Note) : List String := (Journal.statements journal).filter isInsert

/-- What is booked for a table. -/
structure Ledger where
  inserts : List String := []
  /-- The total of executed INSERT statements. -/
  statements : Nat := 0
  /-- The total of inserted rows. -/
  rows : Nat := 0
  /-- The total of records that pass one went through. -/
  analyzed : Nat := 0
  /-- The total of records that pass two went through. -/
  loaded : Nat := 0
  deriving DecidableEq, Repr

namespace Ledger

/-- What a journal books for a table. -/
def of (table : String) (journal : List Note) : Ledger where
  inserts := insertsOf journal
  statements := Journal.total journal (.insertStatements table)
  rows := Journal.total journal (.insertedRows table)
  analyzed := Journal.total journal (.recordsProcessed table "analyze")
  loaded := Journal.total journal (.recordsProcessed table "load")

def add (a b : Ledger) : Ledger where
  inserts := a.inserts ++ b.inserts
  statements := a.statements + b.statements
  rows := a.rows + b.rows
  analyzed := a.analyzed + b.analyzed
  loaded := a.loaded + b.loaded

theorem add_empty (a : Ledger) : a.add {} = a := by
  simp [add]

theorem empty_add (a : Ledger) : ({} : Ledger).add a = a := by
  simp [add]

theorem add_assoc (a b c : Ledger) : (a.add b).add c = a.add (b.add c) := by
  simp [add, Nat.add_assoc]

end Ledger

/-! ## Journals that are joined -/

theorem foldl_amounts (l : List (Series × Nat)) (n : Nat) :
    l.foldl (fun n t => n + t.2) n = n + l.foldl (fun n t => n + t.2) 0 := by
  induction l generalizing n with
  | nil => rfl
  | cons t l ih =>
      rw [List.foldl_cons, List.foldl_cons, ih (n + t.2), ih (0 + t.2)]
      omega

theorem total_append (xs ys : List Note) (series : Series) :
    Journal.total (xs ++ ys) series = Journal.total xs series + Journal.total ys series := by
  rw [Journal.total, List.filterMap_append, List.filter_append, List.foldl_append, foldl_amounts]
  rfl

theorem insertsOf_append (xs ys : List Note) :
    insertsOf (xs ++ ys) = insertsOf xs ++ insertsOf ys := by
  rw [insertsOf, Journal.statements, List.filterMap_append, List.filter_append]
  rfl

theorem ledger_append (table : String) (xs ys : List Note) :
    Ledger.of table (xs ++ ys) = (Ledger.of table xs).add (Ledger.of table ys) := by
  simp only [Ledger.of, Ledger.add, insertsOf_append, total_append]

/-- What is booked so far. -/
def booked {σ : Type} (table : String) (s : Session σ) : Ledger := .of table s.journal.toList

/-! ## Single notes -/

theorem total_nil_of_ne {n : Note} {series : Series}
    (h : ∀ other amount, Journal.tally? n = some (other, amount) → other ≠ series) :
    Journal.total [n] series = 0 := by
  rw [Journal.total, List.filterMap_cons]
  cases htally : Journal.tally? n with
  | none => rfl
  | some p => simp [h p.1 p.2 htally]

theorem total_counted (counted series : Series) (n : Nat) :
    Journal.total [.counted counted n] series = if counted = series then n else 0 := by
  split
  · rename_i h
    simp [Journal.total, Journal.tally?, h]
  · rename_i h
    exact total_nil_of_ne fun _ _ heq => (Prod.mk.inj (Option.some.inj heq)).1 ▸ h

/-- The metrics that are booked. -/
def isBookedMetric : Metric → Bool
  | .insertStatements | .insertedRows | .recordsProcessed => true
  | _ => false

/-- Whether a note books nothing, for any table. -/
def isUnbooked : Note → Bool
  | .executed sql => !isInsert sql
  | .counted series _ | .timed series _ => !isBookedMetric series.metric
  | _ => true

theorem ledger_of_isUnbooked (table : String) {n : Note} (h : isUnbooked n = true) :
    Ledger.of table [n] = {} := by
  have htotal : ∀ series : Series, isBookedMetric series.metric = true →
      Journal.total [n] series = 0 := by
    rintro series hseries
    refine total_nil_of_ne fun other amount htally => ?_
    rintro rfl
    cases n <;> simp_all [Journal.tally?, isUnbooked]
  have hinserts : insertsOf [n] = [] := by
    cases n <;> simp_all [insertsOf, Journal.statements, isUnbooked]
  rw [Ledger.of, hinserts, htotal _ rfl, htotal _ rfl, htotal _ rfl, htotal _ rfl]

theorem ledger_insert (table : String) {sql : String} (h : isInsert sql = true) :
    Ledger.of table [.executed sql] = { inserts := [sql] } := by
  have htotal : ∀ series, Journal.total [.executed sql] series = 0 :=
    fun _ => total_nil_of_ne fun _ _ htally => by cases htally
  have hinserts : insertsOf [.executed sql] = [sql] := by
    simp [insertsOf, Journal.statements, h]
  rw [Ledger.of, hinserts, htotal, htotal, htotal, htotal]

/-- A count is booked under its own series, if that is one of the four. -/
theorem ledger_counted (table : String) (series : Series) (n : Nat) :
    Ledger.of table [.counted series n] = {
      statements := if series = .insertStatements table then n else 0
      rows := if series = .insertedRows table then n else 0
      analyzed := if series = .recordsProcessed table "analyze" then n else 0
      loaded := if series = .recordsProcessed table "load" then n else 0 } := by
  rw [Ledger.of, total_counted, total_counted, total_counted, total_counted]
  rfl

theorem ledger_statements (table : String) (n : Nat) :
    Ledger.of table [.counted (.insertStatements table) n] = { statements := n } := by
  simp [ledger_counted, Series.insertStatements, Series.insertedRows, Series.recordsProcessed]

theorem ledger_rows (table : String) (n : Nat) :
    Ledger.of table [.counted (.insertedRows table) n] = { rows := n } := by
  simp [ledger_counted, Series.insertStatements, Series.insertedRows, Series.recordsProcessed]

theorem ledger_analyzed (table : String) (n : Nat) :
    Ledger.of table [.counted (.recordsProcessed table "analyze") n] = { analyzed := n } := by
  simp [ledger_counted, Series.insertStatements, Series.insertedRows, Series.recordsProcessed]

theorem ledger_loaded (table : String) (n : Nat) :
    Ledger.of table [.counted (.recordsProcessed table "load") n] = { loaded := n } := by
  simp [ledger_counted, Series.insertStatements, Series.insertedRows, Series.recordsProcessed]

/-! ## Steps -/

variable {σ α : Type} {table : String}

/-- The step books this, and leaves what belongs to whoever runs alone. -/
structure Books (table : String) (entry : Ledger) (s s' : Session σ) : Prop where
  booked : booked table s' = (booked table s).add entry
  own : s'.own = s.own

theorem Books.trans {a b : Ledger} {s s' s'' : Session σ} (h : Books table a s s')
    (h' : Books table b s' s'') : Books table (a.add b) s s'' :=
  ⟨by rw [h'.booked, h.booked, Ledger.add_assoc], h'.own.trans h.own⟩

theorem Books.after {a : Ledger} {s s' s'' : Session σ} (h : Books table {} s s')
    (h' : Books table a s' s'') : Books table a s s'' :=
  Ledger.empty_add a ▸ h.trans h'

theorem chain_books : Run.Chain (Books (σ := σ) table {}) where
  refl _ := ⟨(Ledger.add_empty _).symm, rfl⟩
  trans h h' := h.trans h'

theorem books_note (table : String) (n : Note) (s : Session σ) :
    Books table (.of table [n]) s { s with journal := s.journal.push n } := by
  refine ⟨?_, rfl⟩
  rw [Stage.booked, Array.toList_push, ledger_append]
  rfl

theorem along_note (table : String) {n : Note} (h : isUnbooked n = true) :
    Run.Along (Books (σ := σ) table {}) (Run.note n) := by
  intro s
  have hnote := books_note table n s
  rwa [ledger_of_isUnbooked table h] at hnote

theorem books_of_logs {s s' : Session σ} (h : Run.Logs s s') : Books table {} s s' := by
  obtain ⟨-, -, hown, records, hjournal⟩ := h
  refine ⟨?_, hown⟩
  rw [Stage.booked, hjournal, ledger_append]
  congr 1
  clear hjournal
  induction records with
  | nil => rfl
  | cons r records ih =>
      rw [List.map_cons, ← List.singleton_append, ledger_append, ih,
        ledger_of_isUnbooked table rfl]
      rfl

theorem along_of_logs {x : Run σ α} (h : Run.Along Run.Logs x) :
    Run.Along (Books table {}) x := fun s => books_of_logs (h s)

theorem ledger_execution (executor : Executor) (sql : String) :
    Ledger.of table (Run.execution executor sql) = .of table [.executed sql] := by
  rw [Run.execution]
  split
  · rw [← List.singleton_append, ledger_append,
      ledger_of_isUnbooked table (n := .timed _ _) rfl, Ledger.add_empty]
  · rfl

theorem books_execute (table : String) {executor : Executor} {sql : String} {s s' : Session σ}
    (h : (Run.execute executor sql).run s = (.ok (), s')) :
    Books table (.of table [.executed sql]) s s' := by
  obtain ⟨-, -, -, hown, hjournal⟩ := Run.execute_ok h
  refine ⟨?_, hown⟩
  rw [Stage.booked, hjournal, ledger_append, ledger_execution]
  rfl

/-- A statement that inserts nothing books nothing, even if it fails. -/
theorem along_execute {executor : Executor} {sql : String} (h : isInsert sql = false) :
    Run.Along (Books (σ := σ) table {}) (Run.execute executor sql) :=
  chain_books.execute executor sql (fun _ => ⟨(Ledger.add_empty _).symm, rfl⟩)
    (along_note table (by rw [isUnbooked, h]; rfl)) (along_note table rfl) (along_note table rfl)

theorem along_log (table channel : String) (level : Log.Level) (message : String)
    (fields : Members) :
    Run.Along (Books (σ := σ) table {}) (Run.log channel level message fields) :=
  along_of_logs (Run.logs_log channel level message fields)

/-! ## Courses -/

/-- The course of a run books this, and leaves whoever runs with `own`. -/
structure Moves (table : String) (entry : Ledger) (own : σ) (s s' : Session σ) : Prop where
  booked : booked table s' = (booked table s).add entry
  own : s'.own = own

namespace Moves

variable {a b : Ledger} {own own' : σ} {s s' s'' : Session σ}

theorem refl (table : String) (s : Session σ) : Moves table {} s.own s s :=
  ⟨(Ledger.add_empty _).symm, rfl⟩

theorem trans (h : Moves table a own s s') (h' : Moves table b own' s' s'') :
    Moves table (a.add b) own' s s'' :=
  ⟨by rw [h'.booked, h.booked, Ledger.add_assoc], h'.own⟩

theorem books (h : Moves table a own s s') (h' : Books table b s' s'') :
    Moves table (a.add b) own s s'' :=
  h.trans ⟨h'.booked, h'.own.trans h.own⟩

theorem idle (h : Moves table a own s s') (h' : Books table {} s' s'') :
    Moves table a own s s'' :=
  Ledger.add_empty a ▸ h.books h'

theorem modify (h : Moves table a own s s') (f : σ → σ) :
    Moves table a (f own) s { s' with own := f s'.own } :=
  ⟨h.booked, congrArg f h.own⟩

end Moves

end Staging.Stage
