import Staging.Proofs.Page.Reading
import Staging.Proofs.Sql.Row
import Staging.Proofs.Stage.Ledger
import Staging.Stage.Pass

/-!
# What loading books

Every record of a page goes into exactly one INSERT statement, in order: at any moment what was
executed and what the batch holds are together the rows so far (`write_books`). A batch begins and
ends with its array of records, so no statement mixes two of them (`arrays_books`).
-/

namespace Staging.Stage

open Sql Page

/-! ## Single statements -/

/-- What the ledger says of these statements, each given by its rows. -/
def inserted (w : Inserter) (batches : List (List String)) : Ledger where
  inserts := batches.map w.statement
  statements := batches.length
  rows := batches.flatten.length

theorem inserted_append (w : Inserter) (a b : List (List String)) :
    inserted w (a ++ b) = (inserted w a).add (inserted w b) := by
  simp only [inserted, Ledger.add, List.map_append, List.length_append, List.flatten_append,
    Nat.add_zero]

theorem isInsert_statement (w : Inserter) (rows : List String) :
    isInsert (w.statement rows) = true := by
  simp only [isInsert, Inserter.statement, Inserter.lead, String.toList_append]
  rfl

variable {σ : Type} {w : Inserter} {b b' : Batch} {s s' : Session σ} {current : List String}

theorem flush_books (hb : b.Holds w.lead current) (h : (w.flush b).run s = (.ok b', s')) :
    b' = b.executed ∧ Books w.table (inserted w [current]) s s' := by
  have htext : b.text ++ Batch.terminator = w.statement current := by
    rw [hb.text]
    rfl
  rw [Inserter.flush] at h
  obtain ⟨⟨⟩, s₁, hlog, h⟩ := Run.bind_ok h
  obtain ⟨⟨⟩, s₂, hexecute, h⟩ := Run.bind_ok h
  rw [Run.run_bind_ok (Run.run_count _ _ _), Run.run_bind_ok (Run.run_count _ _ _)] at h
  obtain ⟨rfl, rfl⟩ := Run.pure_ok h
  refine ⟨rfl, ?_⟩
  have hlogged := along_log w.table Inserter.channel Log.Level.detail
    ("Loading data for table: " ++ w.table) [("rows", .int b.pending), ("size", .int b.size)] s
  rw [hlog] at hlogged
  have hexecuted := books_execute w.table hexecute
  rw [htext, ledger_insert _ (isInsert_statement w current)] at hexecuted
  have hcounted := (books_note w.table (.counted (.insertStatements w.table) 1) s₂).trans
    (books_note w.table (.counted (.insertedRows w.table) b.pending) _)
  have hrows : Ledger.of w.table [.counted (.insertedRows w.table) b.pending]
      = { rows := current.length } := by
    rw [ledger_rows, hb.pending]
  rw [ledger_statements, hrows] at hcounted
  have hall := (hlogged.trans hexecuted).trans hcounted
  have hentry : (Ledger.add (Ledger.add {} { inserts := [w.statement current] })
      (Ledger.add { statements := 1 } { rows := current.length })) = inserted w [current] := by
    simp [Ledger.add, inserted]
  rwa [hentry] at hall

/-- A row that is written is in an executed statement or in the batch, behind all rows before it. -/
theorem write_books {row : String} (hb : b.Holds w.lead current)
    (h : (w.write b row).run s = (.ok b', s')) : ∃ done current',
      current ++ [row] = done.flatten ++ current' ∧ b'.Holds w.lead current' ∧
      b'.statements = b.statements + done.length ∧ Books w.table (inserted w done) s s' := by
  rw [Inserter.write] at h
  split at h
  · obtain ⟨flushed, s₁, hflush, h⟩ := Run.bind_ok h
    obtain ⟨rfl, rfl⟩ := Run.pure_ok h
    obtain ⟨rfl, hbooks⟩ := flush_books hb hflush
    refine ⟨[current], [row], by simp, ?_, rfl, hbooks⟩
    exact (Batch.holds_start b.executed w.lead).append row
  · obtain ⟨rfl, rfl⟩ := Run.pure_ok h
    exact ⟨[], current ++ [row], rfl, hb.append row, rfl, chain_books.refl s⟩

theorem finish_books (hb : b.Holds w.lead current) (h : (w.finish b).run s = (.ok b', s')) :
    ∃ done : List (List String), done.flatten = current ∧
      b'.statements = b.statements + done.length ∧ Books w.table (inserted w done) s s' := by
  rw [Inserter.finish] at h
  split at h
  · obtain ⟨flushed, s₁, hflush, h⟩ := Run.bind_ok h
    obtain ⟨rfl, rfl⟩ := Run.pure_ok h
    obtain ⟨rfl, hbooks⟩ := flush_books hb hflush
    exact ⟨[current], by simp, rfl, hbooks⟩
  · rename_i hpending
    obtain ⟨rfl, rfl⟩ := Run.pure_ok h
    have hnil : current = [] := by
      rw [hb.pending] at hpending
      exact List.length_eq_zero_iff.mp (by omega)
    exact ⟨[], hnil.symm, rfl, chain_books.refl s⟩

/-! ## Arrays of records -/

theorem along_encodeRow (table : String) (e : Encoder) (record : Json) :
    Run.Along (Books (σ := σ) table {}) (e.encodeRow record) := by
  rw [Encoder.encodeRow]
  split
  · exact chain_books.throw _
  · refine chain_books.bind (chain_books.forM fun substitution _ => ?_)
      fun _ => chain_books.bind (chain_books.liftExcept _) fun _ => chain_books.pure _
    exact chain_books.bind (along_log _ _ _ _ _) fun _ => along_note table rfl

variable {stager : Stager} {t : Schema.Table} {n n' : Nat} {p p' : Session Progress}

/-- The row of a record as the table stores it. -/
def rowOf (stager : Stager) (t : Schema.Table) (record : Json) : Except Failure String :=
  (stager.encoder t).rowText (Redaction.apply (stager.policy.forTable t.name) record)

/-- The rows of these records. -/
def RowsOf (stager : Stager) (t : Schema.Table) (records : List Json) (rows : List String) : Prop :=
  List.Forall₂ (fun record row => rowOf stager t record = .ok row) records rows

/-- The records of an array are booked row by row. -/
theorem records_books {records : List Json} (hb : b.Holds (stager.inserter t).lead current)
    (h : Visits (stager.loadItem t) (b, n) p (records.map .record) (b', n') p') :
    ∃ rows done current', RowsOf stager t records rows ∧
      current ++ rows = done.flatten ++ current' ∧ b'.Holds (stager.inserter t).lead current' ∧
      n' = n + records.length ∧ b'.statements = b.statements + done.length ∧
      Books t.name (inserted (stager.inserter t) done) p p' := by
  induction records generalizing b n p current with
  | nil =>
      obtain ⟨heq, rfl⟩ := h
      obtain ⟨rfl, rfl⟩ := Prod.mk.inj heq
      exact ⟨[], [], current, .nil, by simp, hb, rfl, rfl, chain_books.refl p⟩
  | cons record records ih =>
      obtain ⟨p₁, ⟨b₁, n₁⟩, p₂, hlogs, hitem, hmore⟩ := h
      obtain ⟨row, p₃, hrow, hitem⟩ := Run.bind_ok hitem
      obtain ⟨b₂, p₄, hwrite, hpure⟩ := Run.bind_ok hitem
      obtain ⟨heq, rfl⟩ := Run.pure_ok hpure
      obtain ⟨rfl, rfl⟩ := Prod.mk.inj heq
      have htext : rowOf stager t record = .ok row := by
        rw [rowOf, ← Encoder.encodeRow_outcome _ _ p₁]
        exact congrArg Prod.fst hrow
      have hencoded := along_encodeRow t.name (stager.encoder t)
        (Redaction.apply (stager.policy.forTable t.name) record) p₁
      rw [show ((stager.encoder t).encodeRow _).run p₁ = _ from hrow] at hencoded
      obtain ⟨done, current₁, hsplit, hb₁, hstatements, hbooks⟩ := write_books hb hwrite
      obtain ⟨rows, done', current', hrows, hsplit', hb', hn, hstatements', hbooks'⟩ := ih hb₁ hmore
      refine ⟨row :: rows, done ++ done', current', .cons htext hrows, ?_, hb', ?_, ?_, ?_⟩
      · rw [← List.singleton_append, ← List.append_assoc, hsplit, List.append_assoc, hsplit',
          List.flatten_append, List.append_assoc]
      · rw [hn, List.length_cons]
        omega
      · rw [hstatements', hstatements, List.length_append, Nat.add_assoc]
      · rw [inserted_append]
        exact (((books_of_logs hlogs).after hencoded).after hbooks).trans hbooks'

/-- The statements of one array of records hold its rows, and no others. -/
def BatchesOf (stager : Stager) (t : Schema.Table) (records : List Json)
    (batches : List (List String)) : Prop :=
  RowsOf stager t records batches.flatten

/-- An array of records is booked in statements of its own. -/
theorem array_books {records : List Json}
    (h : Visits (stager.loadItem t) (b, n) p (arrayItems records) (b', n') p') :
    ∃ batches, BatchesOf stager t records batches ∧ n' = n + records.length ∧
      b'.statements = b.statements + batches.length ∧
      Books t.name (inserted (stager.inserter t) batches) p p' := by
  obtain ⟨p₁, ⟨b₁, n₁⟩, p₂, hlogs, hstart, h⟩ := h
  obtain ⟨heq, rfl⟩ := Run.pure_ok hstart
  obtain ⟨rfl, rfl⟩ := Prod.mk.inj heq
  obtain ⟨⟨b₂, n₂⟩, p₃, hrecords, hend⟩ := visits_append h
  obtain ⟨p₄, ⟨b₃, n₃⟩, p₅, hlogs', hitem, hdone⟩ := hend
  obtain ⟨heq, rfl⟩ := hdone
  obtain ⟨rfl, rfl⟩ := Prod.mk.inj heq
  obtain ⟨b₄, p₆, hfinish, hpure⟩ := Run.bind_ok hitem
  obtain ⟨heq, rfl⟩ := Run.pure_ok hpure
  obtain ⟨rfl, rfl⟩ := Prod.mk.inj heq
  obtain ⟨rows, done, current, hrows, hsplit, hb, hn, hstatements, hbooks⟩ :=
    records_books (Batch.holds_start b (stager.inserter t).lead) hrecords
  obtain ⟨done', hflatten, hstatements', hbooks'⟩ := finish_books hb hfinish
  refine ⟨done ++ done', ?_, hn, ?_, ?_⟩
  · rw [List.nil_append] at hsplit
    rw [BatchesOf, List.flatten_append, hflatten, ← hsplit]
    exact hrows
  · rw [hstatements', hstatements, List.length_append, Nat.add_assoc]
    rfl
  · rw [inserted_append]
    exact ((books_of_logs hlogs).after hbooks).trans ((books_of_logs hlogs').after hbooks')

/-- The arrays of records of a page are booked one after the other. -/
theorem arrays_books {arrays : List (List Json)}
    (h : Visits (stager.loadItem t) (b, n) p (arrays.flatMap arrayItems) (b', n') p') :
    ∃ batches, List.Forall₂ (BatchesOf stager t) arrays batches ∧
      n' = n + arrays.flatten.length ∧ b'.statements = b.statements + batches.flatten.length ∧
      Books t.name (inserted (stager.inserter t) batches.flatten) p p' := by
  induction arrays generalizing b n p with
  | nil =>
      obtain ⟨heq, rfl⟩ := h
      obtain ⟨rfl, rfl⟩ := Prod.mk.inj heq
      exact ⟨[], .nil, rfl, rfl, chain_books.refl p⟩
  | cons records arrays ih =>
      rw [List.flatMap_cons] at h
      obtain ⟨⟨b₁, n₁⟩, p₁, hfirst, hmore⟩ := visits_append h
      obtain ⟨first, hof, hn, hstatements, hbooks⟩ := array_books hfirst
      obtain ⟨more, hofs, hn', hstatements', hbooks'⟩ := ih hmore
      refine ⟨first :: more, .cons hof hofs, ?_, ?_, ?_⟩
      · rw [hn', hn, List.flatten_cons, List.length_append, Nat.add_assoc]
      · rw [hstatements', hstatements, List.flatten_cons, List.length_append, Nat.add_assoc]
      · rw [List.flatten_cons, inserted_append]
        exact hbooks.trans hbooks'

end Staging.Stage
