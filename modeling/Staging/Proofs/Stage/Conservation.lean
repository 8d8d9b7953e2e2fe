import Staging.Proofs.Schema.Statistics
import Staging.Proofs.Stage.Passes
import Staging.Stage.Table

/-!
# Records are conserved

From the page files to the INSERT statements no record of a table is lost, doubled or moved: the
executed statements are those of the records that the pages hold, array by array, and all counts of
records and statements agree (`stage_conserves`).
-/

namespace Staging.Stage

open Sql Page Schema

variable {σ : Type} {stager : Stager} {p p' : Session Progress} {table : String}

/-! ## Definition statements -/

theorem isInsert_of_head {c : Char} {start rest : String} (hstart : start.toList.head? = some c)
    (hc : c ≠ 'I') : isInsert (start ++ rest) = false := by
  have hinsert : "INSERT ".toList = 'I' :: "NSERT ".toList := rfl
  obtain ⟨t, ht⟩ := List.head?_eq_some_iff.mp hstart
  rw [isInsert, hinsert, String.toList_append, ht, List.cons_append, List.isPrefixOf,
    beq_eq_false_iff_ne.mpr (Ne.symm hc), Bool.false_and]

theorem isInsert_create (d : Definer) (t : Table) : isInsert (d.create t) = false := by
  unfold Definer.create
  simp only [String.append_assoc]
  exact isInsert_of_head (c := 'C') rfl (by decide)

theorem isInsert_comment (d : Definer) (t : Table) : isInsert (d.comment t) = false := by
  unfold Definer.comment
  simp only [String.append_assoc]
  exact isInsert_of_head (c := 'C') rfl (by decide)

theorem isInsert_grants (d : Definer) (t : Table) : ∀ sql ∈ d.grants t, isInsert sql = false := by
  intro sql hsql
  obtain ⟨role, -, rfl⟩ := List.mem_map.mp hsql
  simp only [String.append_assoc]
  exact isInsert_of_head (c := 'G') rfl (by decide)

theorem isInsert_primaryKey (d : Definer) (t : Table) : isInsert (d.primaryKey t) = false := by
  unfold Definer.primaryKey
  simp only [String.append_assoc]
  exact isInsert_of_head (c := 'A') rfl (by decide)

theorem isInsert_columnIndex (d : Definer) (t : Table) (c : Column) :
    isInsert (d.columnIndex t c) = false := by
  unfold Definer.columnIndex
  simp only [String.append_assoc]
  exact isInsert_of_head (c := 'C') rfl (by decide)

theorem isInsert_indexes (d : Definer) (t : Table) :
    ∀ sql ∈ d.indexes t, isInsert sql = false := by
  intro sql hsql
  have hkey := isInsert_primaryKey d t
  rcases List.mem_append.mp hsql with hsql | hsql
  · split at hsql
    · exact List.mem_singleton.mp hsql ▸ hkey
    · exact absurd hsql List.not_mem_nil
  · obtain ⟨c, -, hsql⟩ := List.mem_flatMap.mp hsql
    split at hsql
    · exact List.mem_singleton.mp hsql ▸ hkey
    · split at hsql
      · exact List.mem_singleton.mp hsql ▸ isInsert_columnIndex d t c
      · exact absurd hsql List.not_mem_nil

theorem along_definition {executor : Executor} {sql : String} (h : isInsert sql = false) :
    Run.Along (Books (σ := σ) table {}) (Definer.execute executor sql) :=
  chain_books.bind (along_log _ _ _ _ _) fun _ => along_execute h

theorem along_createTable (table : String) (d : Definer) (executor : Executor) (t : Table) :
    Run.Along (Books (σ := σ) table {}) (d.createTable executor t) := by
  have hgrants : Run.Along (Books (σ := σ) table {})
      ((d.grants t).forM (Definer.execute executor)) :=
    chain_books.forM fun sql hsql => along_definition (isInsert_grants d t sql hsql)
  refine chain_books.bind (along_definition (isInsert_create d t)) fun _ => ?_
  split
  · exact chain_books.bind (along_log _ _ _ _ _) fun _ =>
      chain_books.bind (along_definition (isInsert_comment d t)) fun _ => hgrants
  · exact hgrants

theorem along_indexTable (table : String) (d : Definer) (executor : Executor) (t : Table) :
    Run.Along (Books (σ := σ) table {}) (d.indexTable executor t) :=
  chain_books.bind (along_log _ _ _ _ _) fun _ =>
    chain_books.forM fun sql hsql => along_definition (isInsert_indexes d t sql hsql)

/-! ## Phases -/

theorem enter_ok (table : String) {phase : Phase} (h : (enter phase).run p = (.ok (), p')) :
    Moves table {} { p.own with phase := phase } p p' := by
  obtain ⟨own, p₁, hown, h⟩ := Run.bind_ok h
  obtain ⟨rfl, rfl⟩ := Run.pure_ok (a := p.own) (s := p) hown
  obtain ⟨⟨⟩, p₂, hlog, h⟩ := Run.bind_ok h
  rw [Run.run_bind_ok (Run.run_note _ _), Run.run_modifyOwn] at h
  obtain rfl := (Prod.mk.inj h).2
  have hlogged := along_log table channel Log.Level.debug
    ("Staging state: " ++ p.own.phase.name ++ " -> " ++ phase.name)
    [("table", .str p.own.table.name)] p
  rw [hlog] at hlogged
  have hentered := hlogged.after (along_note table (n := .entered phase) rfl p₂)
  exact ((Moves.refl table p).idle hentered).modify fun own => { own with phase := phase }

theorem Moves.enter {entry : Ledger} {own : Progress} {phase : Phase} {p'' : Session Progress}
    (h : Moves table entry own p p') (henter : (enter phase).run p' = (.ok (), p'')) :
    Moves table entry { own with phase := phase } p p'' := by
  have hall := h.trans (enter_ok table henter)
  rwa [h.own, Ledger.add_empty] at hall

/-- A timed pass that came to its end is the pass itself, and notes that book nothing. -/
theorem timedPass_ok (table : String) {α : Type} {pass : Pass} {x : Run Progress α} {a : α}
    (h : (Stager.timedPass pass x).run p = (.ok a, p')) :
    ∃ p₁ p₂, Books table {} p p₁ ∧ x.run p₁ = (.ok a, p₂) ∧ Books table {} p₂ p' := by
  obtain ⟨own, p₁, hown, h⟩ := Run.bind_ok h
  obtain ⟨rfl, rfl⟩ := Run.pure_ok (a := p.own) (s := p) hown
  obtain ⟨b, p₂, htimed, h⟩ := Run.bind_ok h
  rw [Run.run_bind_ok (Run.run_time _ _ _)] at h
  obtain ⟨rfl, rfl⟩ := Run.pure_ok h
  obtain ⟨s₁, s₂, hstarted, hx, hcompleted⟩ := Run.timed_run htimed
  have hduration := along_note table
    (n := .timed (.passDuration pass.name) Run.elapsed) rfl p₂
  exact ⟨s₁, s₂, books_of_logs hstarted, hx, (books_of_logs hcompleted).after hduration⟩

/-- A timed pass that failed is the pass itself, after notes that book nothing. -/
theorem timedPass_error (table : String) {α : Type} {pass : Pass} {x : Run Progress α}
    {failure : Failure} (h : (Stager.timedPass pass x).run p = (.error failure, p')) :
    ∃ p₁ p₂, Books table {} p p₁ ∧ x.run p₁ = (.error failure, p₂) := by
  rw [Stager.timedPass, Run.run_bind_ok (Run.run_own p)] at h
  obtain h | ⟨a, p₁, -, h⟩ := Run.bind_error h
  · obtain ⟨s₁, s₂, hstarted, hx, -⟩ := Run.timed_run h
    exact ⟨s₁, s₂, books_of_logs hstarted, hx⟩
  · rw [Run.run_bind_ok (Run.run_time _ _ _)] at h
    cases h

theorem along_report (table : String) (statistics : Statistics) (name : String) :
    Run.Along (Books (σ := σ) table {}) (statistics.report name) :=
  chain_books.forM fun _ _ => along_log _ _ _ _ _

/-- A schema that was built is the inferred one, and nothing is booked for it. -/
theorem buildSchema_ok (table : String) {statistics : Statistics}
    (h : (Stager.buildSchema statistics).run p = (.ok (), p')) :
    ∃ columns, infer p.own.table statistics.fields = ⟨columns, none⟩ ∧
      Moves table {} { p.own with table.columns := p.own.table.columns ++ columns } p p' := by
  obtain ⟨own, p₁, hown, h⟩ := Run.bind_ok h
  obtain ⟨rfl, rfl⟩ := Run.pure_ok (a := p.own) (s := p) hown
  obtain ⟨columns, p₂, hinfer, h⟩ := Run.bind_ok h
  rw [Run.run_modifyOwn] at h
  obtain rfl := (Prod.mk.inj h).2
  obtain ⟨⟨⟩, p₃, hreport, hinfer⟩ := Run.bind_ok hinfer
  have hreported : Books table {} p p₃ := by
    have halong : Run.Along (Books table {})
        ((infer p.own.table statistics.fields).columns.forM
          (Column.report (σ := Progress) p.own.table.name)) :=
      chain_books.forM fun _ _ => along_log _ _ _ _ _
    have hsteps := halong p
    rwa [hreport] at hsteps
  cases hfault : (infer p.own.table statistics.fields).fault with
  | some fault =>
      rw [hfault] at hinfer
      cases hinfer
  | none =>
      rw [hfault] at hinfer
      obtain ⟨rfl, rfl⟩ := Run.pure_ok hinfer
      exact ⟨_, by rw [← hfault], ((Moves.refl table p).idle hreported).modify fun own =>
        { own with table.columns := own.table.columns ++ _ }⟩

/-! ## Both passes -/

/-- What the passes over these documents book, if their records went into these statements. -/
def passed (w : Inserter) (docs : List Json) (batches : List (List String)) : Ledger where
  inserts := batches.map w.statement
  statements := batches.length
  rows := batches.flatten.length
  analyzed := (recordsOfAll docs).length
  loaded := (recordsOfAll docs).length

theorem passed_eq (w : Inserter) (docs : List Json) (batches : List (List String)) :
    Ledger.add { analyzed := (recordsOfAll docs).length }
      ((inserted w batches).add { loaded := (recordsOfAll docs).length })
        = passed w docs batches := by
  simp [Ledger.add, inserted, passed]

theorem timedAnalyze_ok {statistics : Statistics}
    (h : (Stager.timedPass .analyze stager.analyze).run p = (.ok statistics, p')) :
    ∃ docs, List.Forall₂ (Holds stager.files) (stager.pages p.own) docs ∧
      statistics = Statistics.of (recordsOfAll docs) ∧
      Books p.own.table.name { analyzed := (recordsOfAll docs).length } p p' := by
  obtain ⟨p₁, p₂, hbefore, hpass, hafter⟩ := timedPass_ok p.own.table.name h
  obtain ⟨docs, hdocs, hstatistics, hbooks⟩ := analyze_ok hpass
  rw [hbefore.own] at hdocs hbooks
  have hall := (hbefore.after hbooks).trans hafter
  rw [Ledger.add_empty] at hall
  exact ⟨docs, hdocs, hstatistics, hall⟩

theorem timedLoad_ok {docs : List Json} {n : Nat}
    (hdocs : List.Forall₂ (Holds stager.files) (stager.pages p.own) docs)
    (h : (Stager.timedPass .load stager.load).run p = (.ok n, p')) :
    ∃ batches, List.Forall₂ (BatchesOf stager p.own.table) (docs.flatMap recordArrays) batches ∧
      n = (recordsOfAll docs).length ∧
      Moves p.own.table.name
        ((inserted (stager.inserter p.own.table) batches.flatten).add { loaded := n })
        { p.own with statements := p.own.statements + batches.flatten.length } p p' := by
  obtain ⟨p₁, p₂, hbefore, hpass, hafter⟩ := timedPass_ok p.own.table.name h
  obtain ⟨batches, hof, hn, hloaded⟩ := load_ok (hbefore.own ▸ hdocs) hpass
  rw [hbefore.own] at hof hloaded
  have hall := ((Moves.refl p.own.table.name p).idle hbefore).trans hloaded
  rw [Ledger.empty_add] at hall
  exact ⟨batches, hof, hn, hall.idle hafter⟩

/-- The steps before the first statement: pass one, and the schema. -/
def Stager.prepare (s : Stager) : Run Progress Unit := do
  enter .analyze
  let statistics ← Stager.timedPass .analyze s.analyze
  statistics.report (← Run.own).table.name
  enter .buildSchema
  Stager.buildSchema statistics
  enter .createTable

/-- The steps from the first statement on: the loading table, pass two, and the indexes. -/
def Stager.fill (s : Stager) : Run Progress Unit := do
  s.definer.createTable s.executor (← Run.own).table
  enter .load
  let records ← Stager.timedPass .load s.load
  Run.modifyOwn fun p => { p with records := records }
  enter .index
  s.definer.indexTable s.executor (← Run.own).table
  enter .done
  Run.count (.tablesStaged Phase.done.name) 1

theorem takePasses_eq (s : Stager) : s.takePasses = s.prepare >>= fun _ => s.fill := by
  simp only [Stager.takePasses, Stager.prepare, Stager.fill, bind_assoc]

/-- Pass one goes through the documents that the pages hold, and finds the schema of their records.
-/
theorem prepare_ok (h : stager.prepare.run p = (.ok (), p')) :
    ∃ docs columns, List.Forall₂ (Holds stager.files) (stager.pages p.own) docs ∧
      infer p.own.table (Statistics.of (recordsOfAll docs)).fields = ⟨columns, none⟩ ∧
      Moves p.own.table.name { analyzed := (recordsOfAll docs).length }
        { p.own with
          table.columns := p.own.table.columns ++ columns
          phase := .createTable } p p' := by
  have hstart := Moves.refl p.own.table.name p
  obtain ⟨⟨⟩, p₁, hphase, h⟩ := Run.bind_ok h
  have h₁ := hstart.enter hphase
  obtain ⟨statistics, p₂, hpass, h⟩ := Run.bind_ok h
  obtain ⟨docs, hdocs, rfl, hbooks⟩ := timedAnalyze_ok hpass
  rw [h₁.own] at hdocs hbooks
  have h₂ := h₁.books hbooks
  rw [Run.run_bind_ok (Run.run_own p₂)] at h
  obtain ⟨⟨⟩, p₃, hreport, h⟩ := Run.bind_ok h
  have hreported := along_report p.own.table.name (Statistics.of (recordsOfAll docs))
    p₂.own.table.name p₂
  rw [hreport] at hreported
  obtain ⟨⟨⟩, p₄, hphase, h⟩ := Run.bind_ok h
  have h₄ := (h₂.idle hreported).enter hphase
  obtain ⟨⟨⟩, p₅, hschema, hphase⟩ := Run.bind_ok h
  obtain ⟨columns, hinfer, hbuilt⟩ := buildSchema_ok p.own.table.name hschema
  rw [h₄.own] at hinfer hbuilt
  have hall := (h₄.trans hbuilt).enter hphase
  rw [Ledger.empty_add, Ledger.add_empty] at hall
  exact ⟨docs, columns, hdocs, hinfer, hall⟩

/-- Pass two goes through the documents that the pages hold, and all records are booked. -/
theorem fill_ok {docs : List Json}
    (hdocs : List.Forall₂ (Holds stager.files) (stager.pages p.own) docs)
    (h : stager.fill.run p = (.ok (), p')) :
    ∃ batches, List.Forall₂ (BatchesOf stager p.own.table) (docs.flatMap recordArrays) batches ∧
      Moves p.own.table.name ((inserted (stager.inserter p.own.table) batches.flatten).add
          { loaded := (recordsOfAll docs).length })
        { p.own with
          phase := .done
          records := (recordsOfAll docs).length
          statements := p.own.statements + batches.flatten.length } p p' := by
  have hstart := Moves.refl p.own.table.name p
  rw [Stager.fill, Run.run_bind_ok (Run.run_own p)] at h
  obtain ⟨⟨⟩, p₁, hcreate, h⟩ := Run.bind_ok h
  have hcreated := along_createTable p.own.table.name stager.definer stager.executor p.own.table p
  rw [hcreate] at hcreated
  obtain ⟨⟨⟩, p₂, hphase, h⟩ := Run.bind_ok h
  have h₂ := (hstart.idle hcreated).enter hphase
  obtain ⟨n, p₃, hpass, h⟩ := Run.bind_ok h
  -- The phase is no matter for the pages, so the documents of pass one are those of pass two.
  have hpages : stager.pages p₂.own = stager.pages p.own := by
    rw [h₂.own]
    rfl
  obtain ⟨batches, hof, rfl, hloaded⟩ := timedLoad_ok (hpages ▸ hdocs) hpass
  rw [h₂.own] at hof hloaded
  have h₃ := (h₂.trans hloaded).modify fun own => { own with records := (recordsOfAll docs).length }
  rw [Run.run_bind_ok (Run.run_modifyOwn _ _)] at h
  obtain ⟨⟨⟩, p₄, hphase, h⟩ := Run.bind_ok h
  have h₄ := h₃.enter hphase
  rw [Run.run_bind_ok (Run.run_own p₄)] at h
  obtain ⟨⟨⟩, p₅, hindex, h⟩ := Run.bind_ok h
  have hindexed := along_indexTable p.own.table.name stager.definer stager.executor p₄.own.table p₄
  rw [hindex] at hindexed
  obtain ⟨⟨⟩, p₆, hphase, h⟩ := Run.bind_ok h
  have hcounted := along_note p.own.table.name
    (n := .counted (.tablesStaged Phase.done.name) 1) rfl p₆
  rw [show (Run.note _).run p₆ = (.ok (), p') from h] at hcounted
  have hall := ((h₄.idle hindexed).enter hphase).idle hcounted
  rw [Ledger.empty_add] at hall
  exact ⟨batches, hof, hall⟩

/-- Both passes go through the documents that the pages hold, and all records are booked. -/
theorem takePasses_ok (h : stager.takePasses.run p = (.ok (), p')) :
    ∃ docs columns batches, List.Forall₂ (Holds stager.files) (stager.pages p.own) docs ∧
      List.Forall₂ (BatchesOf stager { p.own.table with columns := columns })
        (docs.flatMap recordArrays) batches ∧
      Moves p.own.table.name (passed (stager.inserter p.own.table) docs batches.flatten)
        { p.own with
          table.columns := columns
          phase := .done
          records := (recordsOfAll docs).length
          statements := p.own.statements + batches.flatten.length } p p' := by
  rw [takePasses_eq] at h
  obtain ⟨⟨⟩, p₁, hprepare, hfill⟩ := Run.bind_ok h
  obtain ⟨docs, columns, hdocs, -, hprepared⟩ := prepare_ok hprepare
  -- Neither the name of the table nor its page count has changed, so both passes read one list of
  -- pages, and the documents of the first are those of the second.
  have hpages : stager.pages p₁.own = stager.pages p.own := by
    rw [hprepared.own]
    rfl
  obtain ⟨batches, hof, hfilled⟩ := fill_ok (hpages ▸ hdocs) hfill
  rw [hprepared.own] at hof hfilled
  have hall := hprepared.trans hfilled
  exact ⟨docs, _, batches, hdocs, hof, passed_eq (stager.inserter p.own.table) docs _ ▸ hall⟩

/-! ## Staging a table -/

/-- What is known of a table that was staged: the documents that its pages hold, and the rows of its
INSERT statements, by array of records and statement. -/
structure Conserved (stager : Stager) (t : Table) (result : Result) (session : Session Progress)
    (docs : List Json) (batches : List (List (List String))) : Prop where
  /-- The count file says how many pages there are. -/
  counted : ∃ octets, stager.files (Files.countFile stager.loadDir t.name) = .file octets ∧
    Files.pageCount? octets = some result.pageCount
  pages : List.Forall₂ (Holds stager.files)
    (Files.pages stager.files stager.loadDir t.name result.pageCount) docs
  /-- The statements of each array hold the rows of its records. -/
  rows : List.Forall₂ (fun records statements => List.Forall₂ (fun record row =>
      (stager.encoder { t with columns := result.columns }).Encodes
        (Redaction.apply (stager.policy.forTable t.name) record) row)
    records statements.flatten) (docs.flatMap recordArrays) batches
  executed : insertsOf session.journal.toList = batches.flatten.map (stager.inserter t).statement
  records : result.records = batches.flatten.flatten.length
  analyzed : Journal.total session.journal.toList (.recordsProcessed t.name Pass.analyze.name)
    = result.records
  loaded : Journal.total session.journal.toList (.recordsProcessed t.name Pass.load.name)
    = result.records
  insertedRows : Journal.total session.journal.toList (.insertedRows t.name) = result.records
  statements : result.statements = (insertsOf session.journal.toList).length
  insertStatements : Journal.total session.journal.toList (.insertStatements t.name)
    = result.statements

theorem readPageCount_ok {files : Directory} {dir name : String} {n : Int}
    (h : (readPageCount files dir name).run p = (.ok n, p')) (hn : n ≠ 0) :
    (∃ octets, files (Files.countFile dir name) = .file octets ∧
      Files.pageCount? octets = some n) ∧ p = p' := by
  rw [readPageCount] at h
  cases hfile : files (Files.countFile dir name) with
  | missing =>
      rw [hfile] at h
      obtain ⟨⟨⟩, p₁, -, h⟩ := Run.bind_ok h
      exact absurd (Run.pure_ok h).1.symm hn
  | folder =>
      rw [hfile] at h
      cases h
  | file octets =>
      rw [hfile] at h
      simp only at h
      cases hcount : Files.pageCount? octets with
      | none =>
          rw [hcount] at h
          cases h
      | some m =>
          rw [hcount] at h
          obtain ⟨rfl, rfl⟩ := Run.pure_ok h
          exact ⟨⟨octets, rfl, hcount⟩, rfl⟩

/-- A table that was not skipped went through both passes, after its page count was set. -/
theorem proceed_ok (h : stager.proceed.run p = (.ok (), p')) (hphase : p'.own.phase = .done) :
    ∃ p₁, Books p.own.table.name {} p { p₁ with own := p.own } ∧
      (∃ octets, stager.files (Files.countFile stager.loadDir p.own.table.name) = .file octets ∧
        Files.pageCount? octets = some p₁.own.pageCount) ∧
      p₁.own = { p.own with pageCount := p₁.own.pageCount } ∧
      stager.takePasses.run p₁ = (.ok (), p') := by
  rw [Stager.proceed, Run.run_bind_ok (Run.run_own p)] at h
  obtain ⟨n, p₂, hcount, h⟩ := Run.bind_ok h
  rw [Run.run_bind_ok (Run.run_modifyOwn _ _)] at h
  obtain ⟨⟨⟩, p₃, hlog, hrest⟩ := Run.bind_ok h
  split at hrest
  · obtain ⟨⟨⟩, p₄, -, hrest⟩ := Run.bind_ok hrest
    obtain ⟨⟨⟩, p₅, henter, hrest⟩ := Run.bind_ok hrest
    obtain ⟨-, hown⟩ := enter_ok p.own.table.name henter
    rw [Run.run_count] at hrest
    obtain rfl := (Prod.mk.inj hrest).2
    simp only [hown] at hphase
    cases hphase
  · rename_i hn
    obtain ⟨hread, rfl⟩ := readPageCount_ok hcount hn
    have hlogged := along_log p.own.table.name channel Log.Level.detail
      ("Staging: " ++ p.own.table.name ++ ": page count: " ++ Files.decimal n) []
      { p with own := { p.own with pageCount := n } }
    rw [hlog] at hlogged
    have hown : p₃.own = { p.own with pageCount := n } := hlogged.own
    refine ⟨p₃, ⟨hlogged.booked, rfl⟩, ?_, ?_, hrest⟩
    · rw [hown]
      exact hread
    · rw [hown]

theorem stage_ok {result : Result} (h : stager.stage.run p = (.ok result, p')) :
    ∃ p₁, stager.proceed.run { p with table := some p.own.table.name } = (.ok (), p₁) ∧
      p' = { p₁ with table := none } ∧ result = p₁.own.result := by
  rw [Stager.stage, Run.run_bind_ok (Run.run_own p), Run.run_bind_ok (Run.run_focus _ _),
    Run.run_bind_ok (Run.run_attempt _ _)] at h
  cases hproceed : stager.proceed.run { p with table := some p.own.table.name } with
  | mk outcome p₁ =>
      rw [hproceed] at h
      cases outcome with
      | ok _ =>
          simp only at h
          rw [Run.run_bind_ok (Run.run_focus _ _), Run.run_bind_ok (Run.run_own _)] at h
          obtain ⟨rfl, rfl⟩ := Run.pure_ok h
          exact ⟨p₁, rfl, rfl, rfl⟩
      | error failure =>
          simp only at h
          split at h
          · obtain ⟨⟨⟩, _, -, h⟩ := Run.bind_ok h
            obtain ⟨⟨⟩, _, -, h⟩ := Run.bind_ok h
            obtain ⟨⟨⟩, _, -, h⟩ := Run.bind_ok h
            cases h
          · obtain ⟨⟨⟩, _, -, h⟩ := Run.bind_ok h
            cases h

theorem length_rows {t : Table} {arrays : List (List Json)} {batches : List (List (List String))}
    (h : List.Forall₂ (BatchesOf stager t) arrays batches) :
    arrays.flatten.length = batches.flatten.flatten.length := by
  induction h with
  | nil => rfl
  | cons hof _ ih =>
      have hlength := hof.length_eq
      rw [List.flatten_cons, List.flatten_cons, List.flatten_append, List.length_append,
        List.length_append, ih, hlength]

/-- A table that is done has all records of its pages in its INSERT statements, array by array and
in order, and all counts agree. -/
theorem stage_conserves {stager : Stager} {t : Table} {result : Result} {session : Session Progress}
    (h : stager.stage.start { table := t } = (.ok result, session)) (hdone : result.phase = .done) :
    ∃ docs batches, Conserved stager t result session docs batches := by
  obtain ⟨p, hproceed, rfl, rfl⟩ := stage_ok h
  obtain ⟨p₁, hbefore, hcounted, hown₁, hpasses⟩ := proceed_ok hproceed hdone
  obtain ⟨docs, columns, batches, hpages, hof, hbooked, hown⟩ := takePasses_ok hpasses
  rw [hown₁] at hpages hof hown
  have hname : p₁.own.table.name = t.name := by rw [hown₁]
  rw [hname] at hbooked
  have hinserter : stager.inserter p₁.own.table = stager.inserter t := by rw [hown₁]
  have hledger : booked t.name p = passed (stager.inserter t) docs batches.flatten := by
    have hempty : booked t.name p₁ = {} := hbefore.booked
    rw [hbooked, hempty, Ledger.empty_add, hinserter]
  have hrecords : p.own.records = (recordsOfAll docs).length := by rw [hown]
  have hstatements : p.own.statements = batches.flatten.length := by
    rw [hown]
    exact Nat.zero_add _
  have hlength := length_rows hof
  have hcolumns : p.own.result.columns = columns := by rw [hown, Progress.result]
  have hcount : p.own.result.pageCount = p₁.own.pageCount := by rw [hown, Progress.result]
  have hinserts : insertsOf p.journal.toList = batches.flatten.map (stager.inserter t).statement :=
    congrArg Ledger.inserts hledger
  refine ⟨docs, batches, ?_⟩
  constructor
  case counted => exact hcount ▸ hcounted
  case pages => exact hcount ▸ hpages
  case rows =>
    refine hof.imp fun records statements hrows => hrows.imp fun record row hrow => ?_
    rw [Encoder.encodes_iff, hcolumns]
    exact hrow
  case executed => exact hinserts
  case records => exact hrecords.trans hlength
  case analyzed => exact (congrArg Ledger.analyzed hledger).trans hrecords.symm
  case loaded => exact (congrArg Ledger.loaded hledger).trans hrecords.symm
  case insertedRows =>
    exact ((congrArg Ledger.rows hledger).trans hlength.symm).trans hrecords.symm
  case statements => exact hstatements.trans (by rw [hinserts, List.length_map])
  case insertStatements => exact (congrArg Ledger.statements hledger).trans hstatements.symm

/-- A counted page with two arrays of records, and a test page with one. -/
def noteFiles : Directory := fun path =>
  if path = "/d/notes_count.txt" then .file "1\n".toUTF8.toList
  else if path = "/d/notes_0.json" then
    .file ("\x7b\"n\":[\x7b\"id\":\"a\"\x7d,\x7b\"id\":\"b\"\x7d],"
      ++ "\"m\":[\x7b\"id\":3\x7d]\x7d").toUTF8.toList
  else if path = "/d/notes_test.json" then .file "[\x7b\"id\":\"c\"\x7d]".toUTF8.toList
  else .missing

/-- Statements that are full after one row. -/
def noteStager : Stager where
  files := noteFiles
  executor := ⟨"postgresql", false, none⟩
  loadDir := "/d"
  dialect := .postgres
  settings := { insertFlushThreshold := 40 }
  policy := {}

def noteTable : Table := { name := "notes", sourcePath := "/notes", moduleName := "mod-notes" }

/-- Whether a table was done, with this many records and statements. -/
def isDoneWith (records statements : Nat) (outcome : Except Failure Result) : Bool :=
  match outcome with
  | .ok result => result.phase == .done && result.records == records
      && result.statements == statements
  | .error _ => false

theorem notes_conserved : ∃ result session docs batches,
    noteStager.stage.start { table := noteTable } = (.ok result, session) ∧
      result.phase = .done ∧ result.records = 4 ∧ result.statements = 4 ∧
      Conserved noteStager noteTable result session docs batches := by
  have hdone : isDoneWith 4 4 (noteStager.stage.start { table := noteTable }).1 = true := by
    decide +kernel
  cases hrun : noteStager.stage.start { table := noteTable } with
  | mk outcome session =>
      rw [hrun] at hdone
      cases outcome with
      | error failure => cases hdone
      | ok result =>
          simp only [isDoneWith, Bool.and_eq_true, beq_iff_eq] at hdone
          obtain ⟨⟨hphase, hrecords⟩, hstatements⟩ := hdone
          obtain ⟨docs, batches, hconserved⟩ := stage_conserves hrun hphase
          exact ⟨result, session, docs, batches, rfl, hphase, hrecords, hstatements, hconserved⟩

end Staging.Stage
