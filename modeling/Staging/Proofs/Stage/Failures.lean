import Staging.Proofs.Sql.Redacted
import Staging.Proofs.Stage.Conservation

/-!
# Failures that leave a trace in the database

Pass two reads the pages of pass one again, so while the files and the database do as they should it
finds nothing that pass one did not: the documents are whole, every record can be read, and every
value can be stored (`lacksId_of_row`). The one thing that pass one does not look at is whether a
record has an identifier. Whatever else ends the staging of a table, no statement was executed by
then (`stage_error`).
-/

namespace Staging.Stage

open Sql Page Schema

variable {σ : Type} {stager : Stager} {p p' : Session Progress}

/-! ## Steps without statements -/

/-- The step executes no statement. -/
def Quiet (s s' : Session σ) : Prop :=
  Journal.statements s'.journal.toList = Journal.statements s.journal.toList

theorem chain_quiet : Run.Chain (Quiet (σ := σ)) where
  refl _ := rfl
  trans h h' := h'.trans h

theorem quiet_note {n : Note} (h : Journal.statements [n] = []) :
    Run.Along Quiet (Run.note n : Run σ Unit) := by
  intro s
  rw [Run.run_note]
  unfold Quiet
  rw [Array.toList_push]
  unfold Journal.statements at h ⊢
  rw [List.filterMap_append, h, List.append_nil]

theorem quiet_log (channel : String) (level : Log.Level) (message : String) (fields : Members) :
    Run.Along Quiet (Run.log channel level message fields : Run σ Unit) :=
  fun s => quiet_note rfl s

theorem quiet_modifyOwn (f : σ → σ) : Run.Along Quiet (Run.modifyOwn f) := fun _ => rfl

theorem quiet_enter (phase : Phase) : Run.Along Quiet (enter phase) := by
  refine chain_quiet.bind chain_quiet.own fun p => chain_quiet.bind (quiet_log _ _ _ _) fun _ => ?_
  exact chain_quiet.bind (quiet_note rfl) fun _ => quiet_modifyOwn _

theorem quiet_reportPage (pass : Pass) (path : String) :
    Run.Along Quiet (Stager.reportPage pass path) :=
  chain_quiet.bind chain_quiet.own fun _ => quiet_log _ _ _ _

theorem quiet_analyze (stager : Stager) : Run.Along Quiet stager.analyze := by
  have hvisit : ∀ statistics item, Run.Along Quiet (observeItem statistics item) := by
    intro statistics item
    cases item <;> exact chain_quiet.pure _
  refine chain_quiet.bind chain_quiet.own fun p => chain_quiet.bind ?_ fun statistics =>
    chain_quiet.bind (quiet_note rfl) fun _ => chain_quiet.pure _
  refine chain_quiet.foldlM ?_ _
  intro path _ statistics
  refine chain_quiet.bind (quiet_reportPage _ _) fun _ => ?_
  exact along_read chain_quiet (quiet_note rfl) (fun _ => quiet_note rfl) hvisit statistics

theorem quiet_timedPass {α : Type} {pass : Pass} {x : Run Progress α} (hx : Run.Along Quiet x) :
    Run.Along Quiet (Stager.timedPass pass x) := by
  refine chain_quiet.bind chain_quiet.own fun p => ?_
  refine chain_quiet.bind (chain_quiet.timed hx _ fun _ => quiet_note rfl) fun _ => ?_
  exact chain_quiet.bind (quiet_note rfl) fun _ => chain_quiet.pure _

theorem quiet_report (statistics : Statistics) (name : String) :
    Run.Along Quiet (statistics.report name : Run σ Unit) :=
  chain_quiet.forM fun _ _ => quiet_log _ _ _ _

theorem quiet_buildSchema (statistics : Statistics) :
    Run.Along Quiet (Stager.buildSchema statistics) := by
  refine chain_quiet.bind chain_quiet.own fun p => chain_quiet.bind ?_ fun _ => quiet_modifyOwn _
  unfold inferColumns
  refine chain_quiet.bind (chain_quiet.forM fun _ _ => quiet_log _ _ _ _) fun _ => ?_
  split
  · exact chain_quiet.throw _
  · exact chain_quiet.pure _

/-- Until there is a schema no statement is executed, whatever happens. -/
theorem quiet_prepare (stager : Stager) : Run.Along Quiet stager.prepare := by
  refine chain_quiet.bind (quiet_enter _) fun _ => ?_
  refine chain_quiet.bind (quiet_timedPass (quiet_analyze stager)) fun statistics => ?_
  refine chain_quiet.bind chain_quiet.own fun p => ?_
  refine chain_quiet.bind (quiet_report _ _) fun _ => ?_
  refine chain_quiet.bind (quiet_enter _) fun _ => ?_
  exact chain_quiet.bind (quiet_buildSchema statistics) fun _ => quiet_enter _

theorem quiet_readPageCount (files : Directory) (dir name : String) :
    Run.Along Quiet (readPageCount files dir name : Run σ Int) := by
  unfold readPageCount
  simp only
  split
  · exact chain_quiet.bind (quiet_log _ _ _ _) fun _ => chain_quiet.pure _
  · exact chain_quiet.throw _
  · split
    · exact chain_quiet.pure _
    · exact chain_quiet.throw _

/-! ## Steps that fail only where the database does -/

variable {P : Failure → Prop}

theorem failsOnly_enter (phase : Phase) : Run.FailsOnly P (enter phase) := by
  refine Run.failsOnly_own.bind fun p => (Run.failsOnly_log _ _ _ _).bind fun _ => ?_
  exact (Run.failsOnly_note _).bind fun _ => Run.failsOnly_modifyOwn _

theorem failsOnly_skip : Run.FailsOnly P Stager.skip :=
  (Run.failsOnly_modifyOwn _).bind fun _ =>
    (failsOnly_enter _).bind fun _ => Run.failsOnly_note _

theorem failsOnly_definition {executor : Executor} (hdatabase : Run.DatabaseFailsOnly P executor)
    (sql : String) : Run.FailsOnly P (Definer.execute executor sql : Run σ Unit) :=
  (Run.failsOnly_log _ _ _ _).bind fun _ => Run.failsOnly_execute hdatabase sql

theorem failsOnly_createTable {executor : Executor} (hdatabase : Run.DatabaseFailsOnly P executor)
    (d : Definer) (t : Table) : Run.FailsOnly P (d.createTable executor t : Run σ Unit) := by
  have hgrants : Run.FailsOnly P ((d.grants t).forM (Definer.execute executor) : Run σ Unit) :=
    Run.FailsOnly.forM fun sql _ => failsOnly_definition hdatabase sql
  refine (failsOnly_definition hdatabase _).bind fun _ => ?_
  split
  · refine (Run.failsOnly_log _ _ _ _).bind fun _ => ?_
    exact (failsOnly_definition hdatabase _).bind fun _ => hgrants
  · exact hgrants

theorem failsOnly_indexTable {executor : Executor} (hdatabase : Run.DatabaseFailsOnly P executor)
    (d : Definer) (t : Table) : Run.FailsOnly P (d.indexTable executor t : Run σ Unit) :=
  (Run.failsOnly_log _ _ _ _).bind fun _ =>
    Run.FailsOnly.forM fun sql _ => failsOnly_definition hdatabase sql

theorem failsOnly_flush {w : Inserter} (hdatabase : Run.DatabaseFailsOnly P w.executor)
    (b : Batch) : Run.FailsOnly P (w.flush b : Run σ Batch) := by
  refine (Run.failsOnly_log _ _ _ _).bind fun _ => ?_
  refine (Run.failsOnly_execute hdatabase _).bind fun _ => ?_
  refine (Run.failsOnly_note _).bind fun _ => (Run.failsOnly_note _).bind fun _ => ?_
  exact Run.failsOnly_pure _

theorem failsOnly_write {w : Inserter} (hdatabase : Run.DatabaseFailsOnly P w.executor) (b : Batch)
    (row : String) : Run.FailsOnly P (w.write b row : Run σ Batch) := by
  unfold Inserter.write
  split
  · exact (failsOnly_flush hdatabase b).bind fun _ => Run.failsOnly_pure _
  · exact Run.failsOnly_pure _

theorem failsOnly_finish {w : Inserter} (hdatabase : Run.DatabaseFailsOnly P w.executor)
    (b : Batch) : Run.FailsOnly P (w.finish b : Run σ Batch) := by
  unfold Inserter.finish
  split
  · exact (failsOnly_flush hdatabase b).bind fun _ => Run.failsOnly_pure _
  · exact Run.failsOnly_pure _

/-! ## Pass two -/

theorem failsOnly_row {t : Table} {record : Json}
    (hrow : ∀ failure, rowOf stager t record = .error failure → P failure) :
    Run.FailsOnly P (stager.row t record) := by
  intro s failure s' h
  refine hrow failure ?_
  unfold rowOf
  rw [← Encoder.encodeRow_outcome _ _ s]
  exact congrArg Prod.fst h

theorem failsOnly_loadItem (hdatabase : Run.DatabaseFailsOnly P stager.executor) {t : Table}
    {item : Item Json}
    (hrow : ∀ record, item = .record record →
      ∀ failure, rowOf stager t record = .error failure → P failure) (state : Batch × Nat) :
    Run.FailsOnly P (stager.loadItem t state item) := by
  obtain ⟨batch, count⟩ := state
  have hinserter : Run.DatabaseFailsOnly P (stager.inserter t).executor := hdatabase
  cases item with
  | arrayStart => exact Run.failsOnly_pure _
  | record r =>
      refine (failsOnly_row (hrow r rfl)).bind fun row => ?_
      exact (failsOnly_write hinserter batch row).bind fun _ => Run.failsOnly_pure _
  | arrayEnd => exact (failsOnly_finish hinserter batch).bind fun _ => Run.failsOnly_pure _

/-- Loading a page that holds a document fails only where a row or the database does. -/
theorem failsOnly_loadPage (hdatabase : Run.DatabaseFailsOnly P stager.executor) {t : Table}
    {path : String} {doc : Json} (hdoc : Holds stager.files path doc)
    (hrow : ∀ record ∈ (recordArrays doc).flatten,
      ∀ failure, rowOf stager t record = .error failure → P failure) (count : Nat) :
    Run.FailsOnly P (stager.loadPage t count path) := by
  refine Run.FailsOnly.bind ?_ fun _ => ?_
  · exact Run.failsOnly_own.bind fun _ => Run.failsOnly_log _ _ _ _
  refine Run.FailsOnly.bind ?_ fun state => ?_
  · refine failsOnly_read hdoc ?_ _
    intro item hitem state
    refine failsOnly_loadItem hdatabase ?_ state
    rintro record rfl
    obtain ⟨records, hrecords, hmem⟩ := List.mem_flatMap.mp hitem
    exact hrow record (List.mem_flatten_of_mem hrecords (mem_arrayItems.mp hmem))
  · exact (Run.failsOnly_modifyOwn _).bind fun _ => Run.failsOnly_pure _

/-- A record of these documents without an identifier ended the staging of a table. -/
def LacksId (table : String) (docs : List Json) (failure : Failure) : Prop :=
  failure = .missingId table ∧
    ∃ record ∈ recordsOfAll docs, (record.member? idField).getD .null = .null

theorem mem_recordsOfAll {docs : List Json} {record : Json} :
    record ∈ recordsOfAll docs ↔ ∃ doc ∈ docs, record ∈ (recordArrays doc).flatten := by
  unfold recordsOfAll
  simp only [List.mem_flatten, List.mem_flatMap]
  constructor
  · rintro ⟨records, ⟨doc, hdoc, hrecords⟩, hmem⟩
    exact ⟨doc, hdoc, records, hrecords, hmem⟩
  · rintro ⟨doc, hdoc, records, hrecords, hmem⟩
    exact ⟨records, ⟨doc, hdoc, hrecords⟩, hmem⟩

theorem delivered_of_holds {files : Directory} {paths : List String} {docs : List Json}
    (hdocs : List.Forall₂ (Holds files) paths docs) : ∀ r ∈ recordsOfAll docs, Delivered r := by
  intro r hr
  obtain ⟨doc, hdoc, hmem⟩ := mem_recordsOfAll.mp hr
  obtain ⟨path, -, hholds⟩ := exists_of_mem_forall₂ hdocs.flip hdoc
  obtain ⟨records, hrecords, hmem⟩ := List.mem_flatten.mp hmem
  exact delivered_of_recordArrays hholds.1 records hrecords r hmem

/-- Under the schema of all records, a row can only fail for want of an identifier. -/
theorem lacksId_of_row {t : Table} {columns : List Column} {paths : List String}
    {docs : List Json} (hdocs : List.Forall₂ (Holds stager.files) paths docs)
    (hinfer : infer t (Statistics.of (recordsOfAll docs)).fields = ⟨columns, none⟩)
    {record : Json} (hrecord : record ∈ recordsOfAll docs) {failure : Failure}
    (hrow : rowOf stager { t with columns := columns } record = .error failure) :
    LacksId t.name docs failure := by
  have hinferred : Encoder.InferredFrom (stager.encoder { t with columns := columns }) t
      (recordsOfAll docs) := ⟨delivered_of_holds hdocs, hinfer⟩
  obtain ⟨hfailure, hid⟩ := hinferred.rowText_error hrecord hrow
  exact ⟨hfailure, record, hrecord, hid⟩

section

variable (hdatabase : Run.DatabaseFailsOnly P stager.executor) {docs : List Json}
  (hdocs : List.Forall₂ (Holds stager.files) (stager.pages p.own) docs)
  (hrow : ∀ record ∈ recordsOfAll docs,
    ∀ failure, rowOf stager p.own.table record = .error failure → P failure)

include hdatabase hdocs hrow

/-- Pass two fails only where the row of a record or the database does. -/
theorem load_error {failure : Failure} (h : stager.load.run p = (.error failure, p')) :
    P failure := by
  have hpages : ∀ path ∈ stager.pages p.own, ∀ count,
      Run.FailsOnly P (stager.loadPage p.own.table count path) := by
    intro path hpath count
    obtain ⟨doc, hdoc, hholds⟩ := exists_of_mem_forall₂ hdocs hpath
    exact failsOnly_loadPage hdatabase hholds
      (fun record hrecord => hrow record (mem_recordsOfAll.mpr ⟨doc, hdoc, hrecord⟩)) count
  rw [Stager.load, Run.run_bind_ok (Run.run_own p)] at h
  obtain h | ⟨count, p₁, -, h⟩ := Run.bind_error h
  · exact Run.FailsOnly.foldlM hpages 0 p failure p' h
  · rw [Run.run_bind_ok (Run.run_count _ _ _)] at h
    cases h

/-- From the first statement on a table fails only where the row of a record or the database does.
-/
theorem fill_error {failure : Failure} (h : stager.fill.run p = (.error failure, p')) :
    P failure := by
  rw [Stager.fill, Run.run_bind_ok (Run.run_own p)] at h
  obtain h | ⟨⟨⟩, p₁, hcreate, h⟩ := Run.bind_error h
  · exact failsOnly_createTable hdatabase _ _ p failure p' h
  have hcreated := along_createTable p.own.table.name stager.definer stager.executor p.own.table p
  rw [hcreate] at hcreated
  obtain h | ⟨⟨⟩, p₂, hphase, h⟩ := Run.bind_error h
  · exact failsOnly_enter _ p₁ failure p' h
  have hentered := enter_ok p.own.table.name hphase
  have hown : p₂.own = { p.own with phase := .load } := by rw [hentered.own, hcreated.own]
  obtain h | ⟨count, p₃, -, h⟩ := Run.bind_error h
  · obtain ⟨p₄, p₅, hbooks, hload⟩ := timedPass_error p.own.table.name h
    have hbefore : p₄.own = { p.own with phase := .load } := hbooks.own.trans hown
    exact load_error (p := p₄) hdatabase (by rw [hbefore]; exact hdocs)
      (by rw [hbefore]; exact hrow) hload
  rw [Run.run_bind_ok (Run.run_modifyOwn _ _)] at h
  obtain h | ⟨⟨⟩, p₄, -, h⟩ := Run.bind_error h
  · exact failsOnly_enter _ _ failure p' h
  rw [Run.run_bind_ok (Run.run_own p₄)] at h
  obtain h | ⟨⟨⟩, p₅, -, h⟩ := Run.bind_error h
  · exact failsOnly_indexTable hdatabase _ _ p₄ failure p' h
  obtain h | ⟨⟨⟩, p₆, -, h⟩ := Run.bind_error h
  · exact failsOnly_enter _ p₅ failure p' h
  · exact Run.failsOnly_note _ p₆ failure p' h

end

/-! ## Staging a table -/

/-- A failure of both passes left no statement behind, or is one for want of an identifier. -/
theorem takePasses_error (hnever : stager.executor.failAt = none)
    (hcolumns : p.own.table.columns = []) {failure : Failure}
    (h : stager.takePasses.run p = (.error failure, p')) :
    Quiet p p' ∨ ∃ docs, List.Forall₂ (Holds stager.files) (stager.pages p.own) docs ∧
      LacksId p.own.table.name docs failure := by
  rw [takePasses_eq] at h
  have hquiet := quiet_prepare stager p
  obtain h | ⟨⟨⟩, p₁, hprepare, hfill⟩ := Run.bind_error h
  · rw [h] at hquiet
    exact .inl hquiet
  · obtain ⟨docs, columns, hdocs, hinfer, hprepared⟩ := prepare_ok hprepare
    have hown := hprepared.own
    rw [hcolumns, List.nil_append] at hown
    refine .inr ⟨docs, hdocs, fill_error (p := p₁) (Run.databaseFailsOnly_of_never hnever)
      (by rw [hown]; exact hdocs) (fun record hrecord failure hrow => ?_) hfill⟩
    rw [hown] at hrow
    exact lacksId_of_row hdocs hinfer hrecord hrow

theorem proceed_error (hnever : stager.executor.failAt = none)
    (hcolumns : p.own.table.columns = []) {failure : Failure}
    (h : stager.proceed.run p = (.error failure, p')) :
    Quiet p p' ∨ ∃ octets count docs,
      stager.files (Files.countFile stager.loadDir p.own.table.name) = .file octets ∧
      Files.pageCount? octets = some count ∧
      List.Forall₂ (Holds stager.files)
        (Files.pages stager.files stager.loadDir p.own.table.name count) docs ∧
      LacksId p.own.table.name docs failure := by
  rw [Stager.proceed, Run.run_bind_ok (Run.run_own p)] at h
  have hcounting := quiet_readPageCount stager.files stager.loadDir p.own.table.name p
  obtain h | ⟨count, p₁, hcount, h⟩ := Run.bind_error h
  · rw [h] at hcounting
    exact .inl hcounting
  rw [hcount] at hcounting
  rw [Run.run_bind_ok (Run.run_modifyOwn _ _)] at h
  obtain h | ⟨⟨⟩, p₂, hlog, hrest⟩ := Run.bind_error h
  · exact (Run.failsOnly_log (P := fun _ => False) _ _ _ _ _ failure p' h).elim
  split at hrest
  · exact (failsOnly_skip (P := fun _ => False) p₂ failure p' hrest).elim
  · rename_i hpositive
    obtain ⟨⟨octets, hfile, hread⟩, rfl⟩ := readPageCount_ok hcount hpositive
    have hlogs := Run.logs_log channel Log.Level.detail
      ("Staging: " ++ p.own.table.name ++ ": page count: " ++ Files.decimal count) []
      { p with own := { p.own with pageCount := count } }
    rw [hlog] at hlogs
    have hown : p₂.own = { p.own with pageCount := count } := hlogs.own
    have hbefore : Quiet p p₂ := by
      have hlogged := quiet_log channel Log.Level.detail
        ("Staging: " ++ p.own.table.name ++ ": page count: " ++ Files.decimal count) []
        { p with own := { p.own with pageCount := count } }
      rwa [hlog] at hlogged
    have hempty : p₂.own.table.columns = [] := by rw [hown, hcolumns]
    rcases takePasses_error hnever hempty hrest with hquiet | ⟨docs, hdocs, hlacks⟩
    · exact .inl (chain_quiet.trans hbefore hquiet)
    · rw [hown] at hdocs hlacks
      exact .inr ⟨octets, count, docs, hfile, hread, hdocs, hlacks⟩

/-- A failure of staging is that of its steps, with no statement after it. -/
theorem stage_failed {failure : Failure} (h : stager.stage.run p = (.error failure, p')) :
    ∃ p₁, stager.proceed.run { p with table := some p.own.table.name } = (.error failure, p₁) ∧
      Quiet p₁ p' := by
  rw [Stager.stage, Run.run_bind_ok (Run.run_own p), Run.run_bind_ok (Run.run_focus _ _),
    Run.run_bind_ok (Run.run_attempt _ _)] at h
  cases hproceed : stager.proceed.run { p with table := some p.own.table.name } with
  | mk outcome p₁ =>
      rw [hproceed] at h
      cases outcome with
      | ok _ =>
          simp only at h
          rw [Run.run_bind_ok (Run.run_focus _ _), Run.run_bind_ok (Run.run_own _)] at h
          cases h
      | error failure' =>
          simp only at h
          split at h
          · obtain h | ⟨⟨⟩, p₂, henter, h⟩ := Run.bind_error h
            · exact (failsOnly_enter (P := fun _ => False) _ p₁ failure p' h).elim
            have hentered := quiet_enter .failed p₁
            rw [henter] at hentered
            have hcounted : Quiet p₂ _ :=
              quiet_note (n := .counted (.tablesStaged Phase.failed.name) 1) rfl p₂
            rw [Run.run_bind_ok (Run.run_count _ _ _), Run.run_bind_ok (Run.run_focus _ _)] at h
            cases h
            exact ⟨p₁, rfl, chain_quiet.trans hentered hcounted⟩
          · rw [Run.run_bind_ok (Run.run_focus _ _)] at h
            cases h
            exact ⟨p₁, rfl, rfl⟩

/-- If staging a table without columns fails over a database that does not, then no statement was
executed, or a record on its pages lacks an identifier, as the failure says. -/
theorem stage_error {t : Table} {failure : Failure} {session : Session Progress}
    (hnever : stager.executor.failAt = none) (hcolumns : t.columns = [])
    (h : stager.stage.start { table := t } = (.error failure, session)) :
    Journal.statements session.journal.toList = [] ∨
      failure = .missingId t.name ∧ ∃ octets count docs,
        stager.files (Files.countFile stager.loadDir t.name) = .file octets ∧
        Files.pageCount? octets = some count ∧
        List.Forall₂ (Holds stager.files)
          (Files.pages stager.files stager.loadDir t.name count) docs ∧
        ∃ record ∈ recordsOfAll docs, (record.member? idField).getD .null = .null := by
  obtain ⟨p₁, hproceed, hafter⟩ := stage_failed h
  rcases proceed_error hnever hcolumns hproceed with hquiet | hlacks
  · exact .inl (chain_quiet.trans hquiet hafter)
  · obtain ⟨octets, count, docs, hfile, hread, hdocs, hfailure, hrecord⟩ := hlacks
    exact .inr ⟨hfailure, octets, count, docs, hfile, hread, hdocs, hrecord⟩

/-- A page whose second record has null for an identifier. -/
def unnamedFiles : Directory := fun path =>
  if path = "/d/notes_count.txt" then .file "1".toUTF8.toList
  else if path = "/d/notes_0.json" then
    .file "[\x7b\"id\":\"a\"\x7d,\x7b\"id\":null\x7d]".toUTF8.toList
  else .missing

def unnamedStager : Stager := { noteStager with files := unnamedFiles }

/-- Whether a run failed after this many statements. -/
def isFailedAfter (statements : Nat) (run : Except Failure Result × Session Progress) : Bool :=
  match run with
  | (.ok _, _) => false
  | (.error _, session) => (Journal.statements session.journal.toList).length == statements

theorem unnamed_fails : ∃ session,
    unnamedStager.stage.start { table := noteTable } = (.error (.missingId "notes"), session) ∧
      (Journal.statements session.journal.toList).length = 4 ∧
      ∃ docs, List.Forall₂ (Holds unnamedFiles) ["/d/notes_0.json"] docs ∧
        ∃ record ∈ recordsOfAll docs, (record.member? idField).getD .null = .null := by
  have hfailed : isFailedAfter 4 (unnamedStager.stage.start { table := noteTable }) = true := by
    decide +kernel
  have hfound : unnamedFiles (Files.countFile "/d" "notes") = .file "1".toUTF8.toList := by
    decide +kernel
  have hcounted : Files.pageCount? "1".toUTF8.toList = some 1 := by decide +kernel
  have hpages : Files.pages unnamedFiles "/d" "notes" 1 = ["/d/notes_0.json"] := by decide +kernel
  cases hrun : unnamedStager.stage.start { table := noteTable } with
  | mk outcome session =>
      rw [hrun] at hfailed
      cases outcome with
      | ok result => cases hfailed
      | error failure =>
          have hstatements : (Journal.statements session.journal.toList).length = 4 := by
            simpa [isFailedAfter] using hfailed
          rcases stage_error rfl rfl hrun with hnone | ⟨rfl, octets, count, docs, hpage⟩
          · rw [hnone] at hstatements
            cases hstatements
          · obtain ⟨hfile, hread, hdocs, hrecord⟩ := hpage
            rw [← Entry.file.inj (hfound.symm.trans hfile), hcounted] at hread
            obtain rfl := Option.some.inj hread
            exact ⟨session, rfl, hstatements, docs, hpages ▸ hdocs, hrecord⟩

end Staging.Stage
