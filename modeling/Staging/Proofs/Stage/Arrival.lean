import Staging.Proofs.Schema.Arrival
import Staging.Proofs.Stage.Causes

/-!
# In whatever order the records of a table arrive

Pass one goes through all pages that were counted, and what it learns depends on the records alone
(`stage_learns`). Over a database that never fails the loading table is then created in full, so two
directories that hold the same records lead to the same statements.
-/

namespace Staging.Stage

open Sql Page Schema

variable {stager : Stager} {t : Table} {p p' : Session Progress} {docs : List Json}

/-! ## Pages that hold documents -/

/-- Pages hold the same records whatever documents they are seen to hold. -/
theorem recordsOfAll_eq {files : Directory} {paths : List String} {docs' : List Json}
    (h : List.Forall₂ (Holds files) paths docs) (h' : List.Forall₂ (Holds files) paths docs') :
    recordsOfAll docs = recordsOfAll docs' := by
  induction h generalizing docs' with
  | nil =>
      cases h'
      rfl
  | cons hdoc _ ih =>
      cases h' with
      | cons hdoc' hdocs' =>
          rw [recordsOfAll_cons, recordsOfAll_cons, ih hdocs', ← records_documentItems,
            hdoc.items_eq hdoc', records_documentItems]

section

variable (hdocs : List.Forall₂ (Holds stager.files) (stager.pages p.own) docs)

include hdocs

/-- Pass one goes through all of them. -/
theorem survey_held : ∃ p', stager.survey.run p = (.ok (Statistics.of (recordsOfAll docs)), p') ∧
    Reaches [.entered .analyze, .entered .buildSchema] p p' := by
  obtain ⟨notes, hreaches, hplayed⟩ := follows_survey stager p
  cases hrun : stager.survey.run p with
  | mk outcome p' =>
  rw [hrun] at hreaches hplayed
  cases outcome with
  | ok statistics =>
      obtain ⟨docs', hdocs', rfl⟩ := survey_ok hrun
      obtain rfl : notes = _ := hplayed
      exact ⟨p', by rw [recordsOfAll_eq hdocs hdocs'], hreaches⟩
  | error failure =>
      exfalso
      refine survey_error (P := fun _ => False) (fun path hpath failure hfailure => ?_) hrun
      obtain ⟨doc, -, hdoc⟩ := exists_of_mem_forall₂ hdocs hpath
      rw [failure?_of_holds hdoc] at hfailure
      cases hfailure

/-- What pass one learns ends the passes, or they go on with the columns of the table. -/
theorem takePasses_held {inferred : Inferred}
    (h : infer p.own.table (Statistics.of (recordsOfAll docs)).fields = inferred) :
    (∀ fault, inferred.fault = some fault → ∃ p', stager.takePasses.run p
        = (.error (.schema fault), p') ∧
      course p' = course p ++ [.entered .analyze, .entered .buildSchema] ∧
      p'.own.table = p.own.table) ∧
    (inferred.fault = none → ∃ p', stager.takePasses.run p = stager.fill.run p' ∧
      course p'
        = course p ++ [.entered .analyze, .entered .buildSchema, .entered .createTable] ∧
      p'.own.table
        = { p.own.table with columns := p.own.table.columns ++ inferred.columns } ∧
      stager.pages p'.own = stager.pages p.own) := by
  obtain ⟨p₁, hsurvey, hsurveyed⟩ := survey_held hdocs
  obtain ⟨p₂, hcourse, hown, hbuild⟩ := run_buildSchema (Statistics.of (recordsOfAll docs)) p₁
  have htable : p₂.own.table = { p.own.table with
      columns := p.own.table.columns
        ++ learnt p.own.table (Statistics.of (recordsOfAll docs)).fields } := by
    rw [hown, ← hsurveyed.table]
  rw [hsurveyed.table, h] at hbuild
  rw [learnt, h] at htable
  rw [hsurveyed.course] at hcourse
  rw [takePasses_eq_survey, Run.run_bind_ok hsurvey]
  constructor
  · intro fault hfault
    rw [hfault] at hbuild
    rw [hfault, Option.isNone_some, if_neg Bool.false_ne_true, List.append_nil] at htable
    exact ⟨p₂, Run.run_bind_error hbuild, hcourse, htable⟩
  · intro hnone
    rw [hnone] at hbuild
    rw [hnone, Option.isNone_none, if_pos rfl] at htable
    obtain ⟨p₃, henter, hentered, -⟩ := run_enter .createTable p₂
    rw [Run.run_bind_ok hbuild, Run.run_bind_ok henter]
    refine ⟨p₃, rfl, ?_, hentered.table.trans htable, ?_⟩
    · rw [hentered.course, hcourse, List.append_assoc]
      rfl
    · rw [hentered.pages_eq, ← hsurveyed.pages_eq, hown]
      rfl

end

/-! ## Creation -/

theorem fill_eq (s : Stager) : s.fill = (do
    s.definer.createTable s.executor (← Run.own).table
    enter .load
    s.loadAndConclude) := rfl

theorem entries_filled (stager : Stager) (t : Table) (batches : List (List String)) :
    entries (stager.filling t batches ++ completion) = [.load, .index, .done] := by
  simp [Stager.filling, Stager.insertions, Stager.indexing, entries, completion]

theorem IsPlayed.within_script {α : Type} {script ending notes : List Note}
    {outcome : Except Failure α} (h : IsPlayed script ending notes outcome) :
    notes <+: script ++ ending := by
  cases outcome with
  | ok _ => exact h ▸ List.prefix_rfl
  | error failure => exact h.1.trans (List.prefix_append _ _)

/-- Filling leaves the table as it is, and over a database that never fails it creates the loading
table in full. -/
theorem fill_held (hdocs : List.Forall₂ (Holds stager.files) (stager.pages p.own) docs) :
    (stager.fill.run p).2.own.table = p.own.table ∧
    ∃ notes, course (stager.fill.run p).2 = course p ++ notes ∧
      (stager.executor.failAt = none → ∃ rest, .createTable ∉ entries rest ∧
        notes = (stager.definitions p.own.table).map .executed ++ .entered .load :: rest) := by
  obtain ⟨batches, notes, hreaches, hplayed⟩ := follows_fill hdocs
  have hentries : .createTable ∉ entries notes := by
    intro hmem
    have hfilled := (entries_mono hplayed.within_script).subset hmem
    rw [entries_filled] at hfilled
    exact absurd hfilled (by decide)
  refine ⟨hreaches.table, notes, hreaches.course, fun hnever => ?_⟩
  obtain ⟨created, hcreated, hdefined⟩ := follows_createTable stager p.own.table p
  cases hcreate : (stager.definer.createTable stager.executor p.own.table).run p with
  | mk outcome p₁ =>
  rw [hcreate] at hcreated hdefined
  cases outcome with
  | error failure =>
      have hnone : Run.DatabaseFailsOnly (fun _ => False) stager.executor :=
        Run.databaseFailsOnly_of_never hnever
      exact (failsOnly_createTable hnone _ _ p failure p₁ hcreate).elim
  | ok _ =>
      obtain ⟨p₂, henter, hentered, -⟩ := run_enter .load p₁
      have hpages : List.Forall₂ (Holds stager.files) (stager.pages p₂.own) docs := by
        rwa [hentered.pages_eq, hcreated.pages_eq]
      obtain ⟨-, rest, hrest, -⟩ := follows_loadAndConclude hpages
      have hrun : stager.fill.run p = stager.loadAndConclude.run p₂ := by
        rw [fill_eq, Run.run_bind_ok (Run.run_own p), Run.run_bind_ok hcreate,
          Run.run_bind_ok henter]
      have hcourse := hreaches.course
      rw [hrun, hrest.course, hentered.course, hcreated.course,
        show created = (stager.definitions p.own.table).map .executed ++ [] from hdefined,
        List.append_nil, List.append_assoc, List.append_assoc] at hcourse
      obtain rfl := List.append_cancel_left hcourse
      refine ⟨rest, ?_, rfl⟩
      rw [entries_append] at hentries
      exact fun hmem => hentries (List.mem_append_right _ (List.mem_cons_of_mem _ hmem))

/-! ## From the count on -/

/-- These documents were extracted for a table: one page at least was counted, and all pages are
there, each with a document. -/
structure Extracted (stager : Stager) (t : Table) (docs : List Json) : Prop where
  counted : ∃ octets count, stager.files (Files.countFile stager.loadDir t.name) = .file octets ∧
    Files.pageCount? octets = some count ∧ 0 < count ∧
    List.Forall₂ (Holds stager.files) (Files.pages stager.files stager.loadDir t.name count) docs

theorem proceed_extracted (h : Extracted stager p.own.table docs) :
    ∃ p', stager.proceed.run p = stager.takePasses.run p' ∧ course p' = course p ∧
      p'.own.table = p.own.table ∧
      List.Forall₂ (Holds stager.files) (stager.pages p'.own) docs := by
  obtain ⟨octets, count, hfile, hread, hpositive, hdocs⟩ := h.counted
  have hcount : (readPageCount stager.files stager.loadDir p.own.table.name).run p
      = (.ok count, p) := by
    unfold readPageCount
    simp only [hfile, hread]
    rfl
  obtain ⟨p₁, hlogs, hrun⟩ := run_proceed hcount
  rw [if_neg (by omega)] at hrun
  refine ⟨p₁, hrun, (course_of_logs hlogs :), ?_, ?_⟩
  · rw [hlogs.own]
  · rw [hlogs.own]
    exact hdocs

/-! ## What a run comes to -/

/-- What pass one comes to: a fault, with which nothing is created; or columns for the table, which
is then created, and in full over a database that never fails. -/
def Learns (stager : Stager) (t : Table) (inferred : Inferred)
    (run : Except Failure Result × Session Progress) : Prop :=
  match inferred.fault with
  | some fault => run.1 = .error (.schema fault) ∧ run.2.own.table = t ∧
      .createTable ∉ entries run.2.journal.toList
  | none => run.2.own.table = { t with columns := t.columns ++ inferred.columns } ∧
      .createTable ∈ entries run.2.journal.toList ∧
      (stager.executor.failAt = none →
        statementsIn .createTable run.2 = stager.definitions run.2.own.table)

theorem filter_created (statements : List String) {rest : List Note}
    (h : .createTable ∉ entries rest) :
    ((executionsFrom .createTable (statements.map .executed ++ .entered .load :: rest)).filter
      (·.1 = .createTable)).map Prod.snd = statements := by
  have hrest : (executionsFrom .load rest).filter (·.1 = .createTable) = [] :=
    filter_executionsFrom (by decide) h
  rw [executionsFrom_append, phaseAfter_executed, executionsFrom_executed, executionsFrom,
    List.filter_append, hrest, List.append_nil, filter_executed, if_pos rfl]

theorem createTable_not_mem_ending {α : Type} (outcome : Except Failure α) :
    .createTable ∉ entries (ending outcome) := by
  unfold ending
  split
  · exact List.not_mem_nil
  · split <;> decide

/-- Pass one learns what follows from the records, whatever else the files hold and wherever the
database fails. -/
theorem stage_learns (h : Extracted stager t docs) :
    Learns stager t (infer t (Statistics.of (recordsOfAll docs)).fields)
      (stager.stage.start { table := t }) := by
  obtain ⟨p₁, hproceed, hcourse, htable, hdocs⟩ :=
    proceed_extracted (p := { table := some t.name, own := { table := t } }) h
  obtain ⟨hfaulty, hsound⟩ := takePasses_held hdocs rfl
  rw [htable, show course p₁ = [] from hcourse] at hfaulty hsound
  unfold Learns Run.start
  split
  · rename_i fault hfault
    obtain ⟨p₂, htaken, hsurveyed, hleft⟩ := hfaulty fault hfault
    obtain ⟨p₃, hstage, hended, -, hlast, -⟩ :=
      run_stage (p := { own := { table := t } }) stager (hproceed.trans htaken)
    rw [hstage]
    refine ⟨rfl, hlast.trans hleft, ?_⟩
    rw [entries_course, hended, hsurveyed, entries_append, List.mem_append, not_or]
    exact ⟨by decide, createTable_not_mem_ending _⟩
  · rename_i hnone
    obtain ⟨p₂, htaken, hcreated, hleft, hpages⟩ := hsound hnone
    obtain ⟨hkept, notes, hfilled, hdefined⟩ := fill_held (p := p₂) (hpages ▸ hdocs)
    cases hfill : stager.fill.run p₂ with
    | mk outcome p₃ =>
    rw [hfill] at hkept hfilled
    obtain ⟨p₄, hstage, hended, -, hlast, -⟩ :=
      run_stage (p := { own := { table := t } }) stager (hproceed.trans (htaken.trans hfill))
    rw [hstage]
    have htable : p₄.own.table = p₂.own.table := hlast.trans hkept
    have hwhole : course p₄ = [.entered .analyze, .entered .buildSchema, .entered .createTable]
        ++ notes ++ ending outcome := by
      rw [hended, show course p₃ = _ from hfilled, hcreated, List.nil_append]
    refine ⟨htable.trans hleft, ?_, fun hnever => ?_⟩
    · rw [entries_course, hwhole]
      exact .tail _ (.tail _ (.head _))
    · obtain ⟨rest, hrest, rfl⟩ := hdefined hnever
      have hlater : .createTable ∉ entries (rest ++ ending outcome) := by
        rw [entries_append, List.mem_append, not_or]
        exact ⟨hrest, createTable_not_mem_ending outcome⟩
      have hcreation := filter_created (stager.definitions p₂.own.table) hlater
      rw [statementsIn_course, hwhole, htable, List.append_assoc, List.append_assoc,
        List.cons_append]
      exact hcreation

/-- A table that is done has all of its indexes. -/
theorem stage_indexes (stager : Stager) (t : Table)
    (h : (stager.stage.start { table := t }).2.own.phase = .done) :
    statementsIn .index (stager.stage.start { table := t }).2
      = stager.definer.indexes (stager.stage.start { table := t }).2.own.table := by
  obtain ⟨batches, notes, hcourse, hphase, -, hstaged⟩ :=
    stage_course stager { own := { table := t } }
  have hnone : course ({ own := { table := t } } : Session Progress) = [] := rfl
  rw [Run.start] at h ⊢
  rw [hphase] at h
  rw [statementsIn_course, hcourse, hnone, List.nil_append]
  rcases hstaged.notes_cases with rfl | rfl | ⟨front, hinitial, -, rfl | rfl⟩
  · cases h
  · simp [-List.map_map, Stager.script, Stager.filling, Stager.insertions, Stager.indexing,
      completion, executionsFrom, executionsFrom_append, executionsFrom_executed, filter_executed]
  · exact absurd h (phaseAfter_front hinitial)
  · rw [phaseAfter_append] at h
    cases h

/-! ## Two directories -/

/-- What two runs over a table have in common whose records are the same. -/
structure SameSchema (stager stager' : Stager) (t : Table)
    (run run' : Except Failure Result × Session Progress) : Prop where
  /-- Both have the same columns, or both fail with the same fault. -/
  learnt : ∃ inferred, Learns stager t inferred run ∧ Learns stager' t inferred run'
  created : stager.executor.failAt = none → stager'.executor.failAt = none →
    statementsIn .createTable run.2 = statementsIn .createTable run'.2
  indexed : run.2.own.phase = .done → run'.2.own.phase = .done →
    statementsIn .index run.2 = statementsIn .index run'.2

theorem definer_eq {stager stager' : Stager} (hdialect : stager'.dialect = stager.dialect)
    (hsettings : stager'.settings = stager.settings) : stager'.definer = stager.definer := by
  rw [Stager.definer, Stager.definer, hdialect, hsettings]

section

variable {stager stager' : Stager} {inferred : Inferred}
  {run run' : Except Failure Result × Session Progress}

theorem Learns.table_eq (h : Learns stager t inferred run) (h' : Learns stager' t inferred run') :
    run.2.own.table = run'.2.own.table := by
  unfold Learns at h h'
  split at h <;> rename_i hfault <;> rw [hfault] at h'
  · exact h.2.1.trans h'.2.1.symm
  · exact h.1.trans h'.1.symm

/-- What was learnt says which definitions are executed. -/
theorem Learns.created (h : Learns stager t inferred run) (hnever : stager.executor.failAt = none) :
    statementsIn .createTable run.2
      = if inferred.fault.isSome then [] else stager.definitions run.2.own.table := by
  unfold Learns at h
  split at h <;> rename_i hfault <;> rw [hfault]
  · have hnothing : statementsIn .createTable run.2 = [] := by
      rw [statementsIn, filter_executionsFrom (by decide) h.2.2]
      rfl
    exact hnothing
  · exact h.2.2 hnever

end

/-- The schema depends on the records alone. -/
theorem schema_of_records {stager stager' : Stager} {docs' : List Json}
    (h : Extracted stager t docs) (h' : Extracted stager' t docs')
    (hdialect : stager'.dialect = stager.dialect) (hsettings : stager'.settings = stager.settings)
    (hsame : SameRecords (recordsOfAll docs) (recordsOfAll docs')) :
    SameSchema stager stager' t (stager.stage.start { table := t })
      (stager'.stage.start { table := t }) := by
  have hlearns := stage_learns h
  have hlearns' := stage_learns h'
  rw [← infer_rearranged t hsame] at hlearns'
  have htable := hlearns.table_eq hlearns'
  have hdefiner := definer_eq hdialect hsettings
  constructor
  case learnt => exact ⟨_, hlearns, hlearns'⟩
  case created =>
    intro hnever hnever'
    rw [hlearns.created hnever, hlearns'.created hnever', htable, Stager.definitions,
      Stager.definitions, hdefiner]
  case indexed =>
    intro hdone hdone'
    rw [stage_indexes stager t hdone, stage_indexes stager' t hdone', htable, hdefiner]

/-- The page at a path is read as one with this document would be. -/
def ReadsAs (files : Directory) (path : String) (doc : Json) : Prop :=
  doc.inRange = true ∧ ∃ octets, files path = .file octets ∧
    (Content.ofOctets path octets).items = Assembly.documentTexts doc ∧
    (Content.ofOctets path octets).failure = none

/-- Pages hold the records of the documents that they are read as. -/
theorem holds_of_readsAs {files : Directory} {paths : List String}
    (h : List.Forall₂ (ReadsAs files) paths docs) :
    ∃ docs', List.Forall₂ (Holds files) paths docs' ∧ recordsOfAll docs' = recordsOfAll docs := by
  induction h with
  | nil => exact ⟨[], .nil, rfl⟩
  | @cons path doc paths docs hdoc _ ih =>
      obtain ⟨docs', hdocs', hrecords⟩ := ih
      obtain ⟨hrange, octets, hfile, htexts, hfailure⟩ := hdoc
      obtain ⟨doc', hrange', hevents⟩ := ofOctets_complete hfailure
      have hcontent : Content.ofOctets path octets = ⟨Assembly.documentTexts doc', none⟩ :=
        ofOctets_document hrange' hevents
      rw [hcontent] at htexts
      have hitems := Assembly.parsed_documentTexts hrange'
      rw [show Assembly.documentTexts doc' = Assembly.documentTexts doc from htexts,
        Assembly.parsed_documentTexts hrange] at hitems
      refine ⟨doc' :: docs', .cons ⟨hrange', octets, hfile, hevents⟩ hdocs', ?_⟩
      rw [recordsOfAll_cons, recordsOfAll_cons, hrecords, ← records_documentItems,
        ← Except.ok.inj hitems, records_documentItems]

/-- Two notes in one array, on one page. -/
def oneArray : List Json :=
  [.arr [.obj [("id", .str "a"), ("n", .obj [("x", .bool true), ("y", .arr [])])],
    .obj [("id", .str "b")]]]

/-- The same notes, one in an envelope and one in the test page, and an empty page between. -/
def threePages : List Json :=
  [.obj [("k", .arr [.obj [("id", .str "b")]])],
    .arr [],
    .arr [.obj [("n", .obj [("y", .arr []), ("x", .bool true)]), ("id", .str "a")]]]

def oneArrayStager : Stager := { noteStager with
  files := fun path =>
    if path = "/d/notes_count.txt" then .file "1".toUTF8.toList
    else if path = "/d/notes_0.json" then
      .file ("[\x7b\"id\":\"a\",\"n\":\x7b\"x\":true,\"y\":[]\x7d\x7d,"
        ++ "\x7b\"id\":\"b\"\x7d]").toUTF8.toList
    else .missing }

def threePagesStager : Stager := { noteStager with
  files := fun path =>
    if path = "/e/notes_count.txt" then .file "2".toUTF8.toList
    else if path = "/e/notes_0.json" then
      .file "\x7b\"k\":[\x7b\"id\":\"b\"\x7d]\x7d".toUTF8.toList
    else if path = "/e/notes_1.json" then .file "[]".toUTF8.toList
    else if path = "/e/notes_test.json" then
      .file "[\x7b\"n\":\x7b\"y\":[],\"x\":true\x7d,\"id\":\"a\"\x7d]".toUTF8.toList
    else .missing
  loadDir := "/e" }

theorem oneArray_extracted : ∃ docs, Extracted oneArrayStager noteTable docs ∧
    recordsOfAll docs = recordsOfAll oneArray := by
  have hpages : Files.pages oneArrayStager.files oneArrayStager.loadDir noteTable.name 1
      = ["/d/notes_0.json"] := by decide +kernel
  have hread : List.Forall₂ (ReadsAs oneArrayStager.files) ["/d/notes_0.json"] oneArray :=
    .cons ⟨rfl, _, rfl, by decide +kernel, by decide +kernel⟩ .nil
  obtain ⟨docs, hdocs, hrecords⟩ := holds_of_readsAs hread
  exact ⟨docs, ⟨"1".toUTF8.toList, 1, by decide +kernel, by decide +kernel, by decide,
    hpages ▸ hdocs⟩, hrecords⟩

theorem threePages_extracted : ∃ docs, Extracted threePagesStager noteTable docs ∧
    recordsOfAll docs = recordsOfAll threePages := by
  have hpages : Files.pages threePagesStager.files threePagesStager.loadDir noteTable.name 2
      = ["/e/notes_0.json", "/e/notes_1.json", "/e/notes_test.json"] := by decide +kernel
  have hread : List.Forall₂ (ReadsAs threePagesStager.files)
      ["/e/notes_0.json", "/e/notes_1.json", "/e/notes_test.json"] threePages :=
    .cons ⟨rfl, _, rfl, by decide +kernel, by decide +kernel⟩
      (.cons ⟨rfl, _, rfl, by decide +kernel, by decide +kernel⟩
        (.cons ⟨rfl, _, rfl, by decide +kernel, by decide +kernel⟩ .nil))
  obtain ⟨docs, hdocs, hrecords⟩ := holds_of_readsAs hread
  exact ⟨docs, ⟨"2".toUTF8.toList, 2, by decide +kernel, by decide +kernel, by decide,
    hpages ▸ hdocs⟩, hrecords⟩

theorem notes_same : SameRecords (recordsOfAll oneArray) (recordsOfAll threePages) := by
  have htags : Rearranged (.obj [("x", .bool true), ("y", .arr [])])
      (.obj [("y", .arr []), ("x", .bool true)]) :=
    .object rfl (.cons (.same _) (.cons (.same _) .nil)) (.swap _ _ _)
  have hnote : Rearranged
      (.obj [("id", .str "a"), ("n", .obj [("x", .bool true), ("y", .arr [])])])
      (.obj [("n", .obj [("y", .arr []), ("x", .bool true)]), ("id", .str "a")]) := by
    refine .object ?_ ?_ (.swap _ _ _)
    · rfl
    · exact .cons (.same _) (.cons htags .nil)
  exact ⟨(recordsOfAll oneArray).reverse, (List.reverse_perm _).symm,
    .cons (.same _) (.cons hnote .nil)⟩

theorem infer_oneArray : infer noteTable (Statistics.of (recordsOfAll oneArray)).fields
    = ⟨[⟨"id", "id", .id⟩, ⟨"n", "n", .varchar⟩], none⟩ := by
  have hsorted : Json.sortMembers (Statistics.of (recordsOfAll oneArray)).fields
      = (Statistics.of (recordsOfAll oneArray)).fields :=
    List.mergeSort_of_pairwise (by decide +kernel)
  rw [infer, hsorted]
  decide +kernel

theorem notes_schema : ∃ docs docs', Extracted oneArrayStager noteTable docs ∧
    Extracted threePagesStager noteTable docs' ∧
    SameRecords (recordsOfAll docs) (recordsOfAll docs') ∧
    SameSchema oneArrayStager threePagesStager noteTable
      (oneArrayStager.stage.start { table := noteTable })
      (threePagesStager.stage.start { table := noteTable }) ∧
    (oneArrayStager.stage.start { table := noteTable }).2.own.table.columns
      = [⟨"id", "id", .id⟩, ⟨"n", "n", .varchar⟩] := by
  obtain ⟨docs, hdocs, hrecords⟩ := oneArray_extracted
  obtain ⟨docs', hdocs', hrecords'⟩ := threePages_extracted
  have hsame : SameRecords (recordsOfAll docs) (recordsOfAll docs') :=
    hrecords ▸ hrecords' ▸ notes_same
  have hlearns := stage_learns hdocs
  rw [hrecords, infer_oneArray] at hlearns
  refine ⟨docs, docs', hdocs, hdocs', hsame, schema_of_records hdocs hdocs' rfl rfl hsame, ?_⟩
  rw [hlearns.1]
  rfl

end Staging.Stage
