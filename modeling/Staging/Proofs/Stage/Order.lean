import Staging.Proofs.Sql.Definition
import Staging.Proofs.Stage.Course

/-!
# Statements in their order

A table is created, filled and indexed, in this order and each in a phase of its own, and staging
breaks off only between two statements (`stage_in_order`). A table is done just when all of its
indexes are there: no statement of another kind can stand for the last of them.
-/

namespace Staging.Stage

open Sql Schema

variable {stager : Stager} {t : Table} {phase : Phase} {notes more journal : List Note}
  {batches : List (List String)}

/-! ## Views of a journal -/

/-- The statements that were executed, each with the phase that it was executed in, if `phase` was
the one before. -/
def executionsFrom : Phase → List Note → List (Phase × String)
  | _, [] => []
  | _, .entered next :: notes => executionsFrom next notes
  | phase, .executed sql :: notes => (phase, sql) :: executionsFrom phase notes
  | phase, _ :: notes => executionsFrom phase notes

/-- The phases that were entered. -/
def entries (journal : List Note) : List Phase :=
  journal.filterMap fun
    | .entered phase => some phase
    | _ => none

theorem executionsFrom_filter (phase : Phase) (journal : List Note) :
    executionsFrom phase (journal.filter isMilestone) = executionsFrom phase journal := by
  induction journal generalizing phase with
  | nil => rfl
  | cons n journal ih =>
      rw [List.filter_cons]
      split
      · cases n <;> simp only [executionsFrom, ih]
      · rename_i hother
        rw [ih]
        cases n <;> first
          | rfl
          | exact absurd rfl hother

theorem entries_append (notes more : List Note) :
    entries (notes ++ more) = entries notes ++ entries more := List.filterMap_append

theorem entries_filter (journal : List Note) :
    entries (journal.filter isMilestone) = entries journal := by
  unfold entries
  rw [List.filterMap_filter]
  refine List.filterMap_congr fun n _ => ?_
  split
  · rfl
  · rename_i hother
    cases n <;> first
      | rfl
      | exact absurd rfl hother

theorem statements_eq_executions (phase : Phase) (journal : List Note) :
    Journal.statements journal = (executionsFrom phase journal).map Prod.snd := by
  unfold Journal.statements
  induction journal generalizing phase with
  | nil => rfl
  | cons n journal ih => cases n <;> simp [executionsFrom, ← ih]

theorem executionsFrom_append (phase : Phase) (notes more : List Note) :
    executionsFrom phase (notes ++ more)
      = executionsFrom phase notes ++ executionsFrom (phaseAfter phase notes) more := by
  induction notes generalizing phase with
  | nil => rfl
  | cons n notes ih => cases n <;> simp [executionsFrom, phaseAfter, ih]

theorem executionsFrom_executed (phase : Phase) (statements : List String) :
    executionsFrom phase (statements.map .executed) = statements.map (phase, ·) := by
  induction statements with
  | nil => rfl
  | cons sql statements ih => simp [executionsFrom, ih]

theorem entries_mono (h : notes <+: more) : entries notes <+: entries more := h.filterMap _

theorem statements_mono (h : notes <+: more) :
    Journal.statements notes <+: Journal.statements more := h.filterMap _

theorem entries_course (session : Session Progress) :
    entries session.journal.toList = entries (course session) := (entries_filter _).symm

/-- The statements that were executed in a phase. -/
def statementsIn (phase : Phase) (session : Session Progress) : List String :=
  ((executionsFrom .awaitPageCount session.journal.toList).filter (·.1 = phase)).map Prod.snd

theorem statementsIn_course (phase : Phase) (session : Session Progress) :
    statementsIn phase session = ((executionsFrom .awaitPageCount (course session)).filter
      (·.1 = phase)).map Prod.snd := by
  rw [statementsIn, course, executionsFrom_filter]

theorem filter_executed (phase other : Phase) (statements : List String) :
    ((statements.map (other, ·)).filter (·.1 = phase)).map Prod.snd
      = if other = phase then statements else [] := by
  split <;> simp_all [List.filter_map, Function.comp_def]

/-- Nothing is executed in a phase that was not entered. -/
theorem filter_executionsFrom {phase other : Phase} (hne : other ≠ phase) {notes : List Note}
    (h : phase ∉ entries notes) : (executionsFrom other notes).filter (·.1 = phase) = [] := by
  induction notes generalizing other with
  | nil => rfl
  | cons n notes ih =>
      cases n with
      | entered next =>
          have hentered : phase ∉ next :: entries notes := h
          rw [List.mem_cons, not_or] at hentered
          exact ih (Ne.symm hentered.1) hentered.2
      | executed sql =>
          rw [executionsFrom, List.filter_cons_of_neg (by simpa using hne)]
          exact ih hne h
      | _ => exact ih hne h

theorem getLast?_entries (phase : Phase) (notes : List Note) :
    (phase :: entries notes).getLast? = some (phaseAfter phase notes) := by
  induction notes generalizing phase with
  | nil => rfl
  | cons n notes ih =>
      cases n with
      | entered next => exact List.getLast?_cons_cons.trans (ih next)
      | _ => exact ih phase

/-! ## The script -/

/-- The statements that index a table whose columns were inferred. -/
def Stager.indexes (s : Stager) (t : Table) : List String :=
  s.definer.primaryKey t :: (s.definer.indexed t.columns).map (s.definer.columnIndex t)

/-- The statements of a table in their order, each with its phase. -/
def Stager.executions (s : Stager) (t : Table) (batches : List (List String)) :
    List (Phase × String) :=
  (s.definitions t).map (.createTable, ·)
    ++ (batches.map (s.inserter t).statement).map (.load, ·)
    ++ (s.indexes t).map (.index, ·)

theorem executionsFrom_script (h : stager.definer.indexes t = stager.indexes t) :
    executionsFrom .awaitPageCount (stager.script t batches) = stager.executions t batches := by
  simp [-List.map_map, Stager.script, Stager.filling, Stager.insertions, Stager.indexing,
    Stager.executions, executionsFrom, executionsFrom_append, executionsFrom_executed, h]

theorem entries_script (stager : Stager) (t : Table) (batches : List (List String)) :
    entries (stager.script t batches) = [.analyze, .buildSchema, .createTable, .load, .index] := by
  simp [Stager.script, Stager.filling, Stager.insertions, Stager.indexing, entries]

/-! ## Kinds of statements -/

/-- The first characters of a statement. They tell its kind. -/
def opening (sql : String) : List Char := sql.toList.take 8

theorem opening_append {start : String} (h : 8 ≤ start.toList.length) (rest : String) :
    opening (start ++ rest) = opening start := by
  unfold opening
  rw [String.toList_append, List.take_append_of_le_length h]

theorem opening_columnIndex (d : Definer) (t : Table) (c : Column) :
    opening (d.columnIndex t c) = "CREATE I".toList := by
  unfold Definer.columnIndex
  simp only [String.append_assoc]
  exact opening_append (by decide) _

theorem opening_primaryKey (d : Definer) (t : Table) :
    opening (d.primaryKey t) = "ALTER TA".toList := by
  unfold Definer.primaryKey
  simp only [String.append_assoc]
  exact opening_append (by decide) _

theorem opening_statement (w : Inserter) (rows : List String) :
    opening (w.statement rows) = "INSERT I".toList := by
  unfold Inserter.statement Inserter.lead
  simp only [String.append_assoc]
  exact opening_append (by decide) _

theorem opening_create (d : Definer) (t : Table) : opening (d.create t) = "CREATE T".toList := by
  unfold Definer.create
  simp only [String.append_assoc]
  exact opening_append (by decide) _

theorem opening_comment (d : Definer) (t : Table) : opening (d.comment t) = "COMMENT ".toList := by
  unfold Definer.comment
  simp only [String.append_assoc]
  exact opening_append (by decide) _

theorem opening_grants (d : Definer) (t : Table) :
    ∀ sql ∈ d.grants t, opening sql = "GRANT SE".toList := by
  intro sql hsql
  obtain ⟨role, -, rfl⟩ := List.mem_map.mp hsql
  simp only [String.append_assoc]
  exact opening_append (by decide) _

/-- The openings of the statements that index a table. -/
def indexOpenings : List (List Char) := ["ALTER TA".toList, "CREATE I".toList]

theorem opening_definitions (stager : Stager) (t : Table) :
    ∀ sql ∈ stager.definitions t, opening sql ∉ indexOpenings := by
  unfold Stager.definitions
  intro sql hsql
  rcases List.mem_append.mp hsql with hsql | hsql
  · rcases List.mem_cons.mp hsql with rfl | hsql
    · rw [opening_create]
      decide
    · split at hsql
      · rw [List.mem_singleton.mp hsql, opening_comment]
        decide
      · exact absurd hsql List.not_mem_nil
  · rw [opening_grants _ _ sql hsql]
    decide

theorem columnIndex_injective (d : Definer) (t : Table) {c c' : Column}
    (h : d.columnIndex t c = d.columnIndex t c') : c.name = c'.name := by
  unfold Definer.columnIndex Definer.quoted at h
  simpa only [String.append_assoc, String.append_right_inj, String.append_left_inj] using h

theorem opening_indexes (stager : Stager) (t : Table) :
    ∀ sql ∈ stager.indexes t, opening sql ∈ indexOpenings := by
  intro sql hsql
  rcases List.mem_cons.mp hsql with rfl | hsql
  · rw [opening_primaryKey]
    decide
  · obtain ⟨c, -, rfl⟩ := List.mem_map.mp hsql
    rw [opening_columnIndex]
    decide

/-- Columns with different names have different indexes. -/
theorem indexes_nodup (stager : Stager) (hnames : (t.columns.map (·.name)).Nodup) :
    (stager.indexes t).Nodup := by
  refine List.nodup_cons.mpr ⟨?_, ?_⟩
  · intro hmem
    obtain ⟨c, -, heq⟩ := List.mem_map.mp hmem
    have hopening := congrArg opening heq
    rw [opening_columnIndex, opening_primaryKey] at hopening
    exact absurd hopening (by decide)
  · have hindexed : (stager.definer.indexed t.columns).Sublist t.columns := by
      unfold Definer.indexed
      split
      · exact List.filter_sublist
      · exact List.nil_sublist _
    have hsub := hnames.sublist (hindexed.map _)
    rw [List.Nodup, List.pairwise_map] at hsub ⊢
    exact hsub.imp fun hne heq => hne (columnIndex_injective _ t heq)

/-! ## Breaking off -/

theorem statements_append (notes more : List Note) :
    Journal.statements (notes ++ more) = Journal.statements notes ++ Journal.statements more :=
  List.filterMap_append

/-- Where the script was not played to its end, the last index is not there, nor can another
statement be taken for it. -/
theorem exists_missing (h : stager.definer.indexes t = stager.indexes t)
    (hnodup : (stager.indexes t).Nodup) (hinitial : notes <+: stager.script t batches)
    (hne : notes ≠ stager.script t batches) :
    ∃ sql ∈ stager.indexes t, sql ∉ Journal.statements notes := by
  have hnil : stager.indexes t ≠ [] := List.cons_ne_nil _ _
  obtain ⟨first, last, hlast⟩ : ∃ first last, stager.indexes t = first ++ [last] :=
    ⟨_, _, (List.dropLast_append_getLast hnil).symm⟩
  have hmem : last ∈ stager.indexes t := hlast ▸ List.mem_append_right _ List.mem_cons_self
  refine ⟨last, hmem, fun hexecuted => ?_⟩
  let front : List Note := [.entered .analyze, .entered .buildSchema, .entered .createTable]
    ++ (stager.definitions t).map .executed ++ .entered .load :: (stager.insertions t batches
    ++ .entered .index :: first.map .executed)
  have hscript : stager.script t batches = front ++ [.executed last] := by
    simp [front, Stager.script, Stager.filling, Stager.indexing, h, hlast]
  rw [hscript] at hinitial hne
  have hfront := statements_mono ((List.prefix_concat_iff.mp hinitial).resolve_left hne)
  have hstatements : Journal.statements front
      = stager.definitions t ++ (batches.map (stager.inserter t).statement ++ first) := by
    simp [front, Journal.statements, Stager.insertions]
  rw [hstatements] at hfront
  have hopening := opening_indexes stager t last hmem
  rcases List.mem_append.mp (hfront.subset hexecuted) with hdefined | hlater
  · exact opening_definitions stager t last hdefined hopening
  rcases List.mem_append.mp hlater with hinserted | hindexed
  · obtain ⟨rows, -, rfl⟩ := List.mem_map.mp hinserted
    rw [opening_statement] at hopening
    exact absurd hopening (by decide)
  · rw [hlast, List.nodup_append] at hnodup
    exact hnodup.2.2 last hindexed last List.mem_cons_self rfl

/-! ## Staging in order -/

/-- The phases of a table that is staged to the end. -/
def mainline : List Phase :=
  [.awaitPageCount, .analyze, .buildSchema, .createTable, .load, .index, .done]

/-- How the way through the phases may be left: a table is skipped before the first pass, and given
up anywhere before it is done. -/
inductive Leaves : List Phase → List Phase → Prop
  | nowhere (passed : List Phase) : Leaves passed []
  | skipped : Leaves [.awaitPageCount] [.skipped]
  | failed {passed : List Phase} (h : .done ∉ passed) : Leaves passed [.failed]

/-- What is known of the staging of a table, however it ends: its statements and phases, if the rows
go into these INSERT statements. -/
structure InOrder (stager : Stager) (t : Table) (session : Session Progress)
    (batches : List (List String)) : Prop where
  /-- The columns are inferred ones, or none. -/
  inferred : ∃ fields, infer t fields = ⟨session.own.table.columns, none⟩
  table : session.own.table
    = { t with columns := session.own.table.columns, skip := session.own.table.skip }
  executions : executionsFrom .awaitPageCount session.journal.toList
    <+: stager.executions session.own.table batches
  done_iff : session.own.phase = .done ↔ ∀ sql ∈ stager.indexes session.own.table,
    sql ∈ Journal.statements session.journal.toList
  skipped : session.own.phase = .skipped → Journal.statements session.journal.toList = []
  phases : ∃ passed jump, .awaitPageCount :: entries session.journal.toList = passed ++ jump ∧
    passed <+: mainline ∧ Leaves passed jump
  phase : (.awaitPageCount :: entries session.journal.toList).getLast? = some session.own.phase

/-- What the milestones of a table look like. -/
theorem Staged.notes_cases {script : List Note} {own : Progress} {outcome : Except Failure Result}
    (h : Staged script own notes outcome) :
    notes = passing ∨ notes = script ++ completion ∨
      ∃ front, front <+: script ∧ front ≠ script ∧
        (notes = front ∨ notes = front ++ abandonment) := by
  cases h with
  | ended h =>
      cases h with
      | skipped _ => exact .inl rfl
      | played h => exact .inr (.inl h)
  | abandoned _ hinitial hne => exact .inr (.inr ⟨_, hinitial, hne, .inr rfl⟩)
  | broken _ hinitial hne => exact .inr (.inr ⟨_, hinitial, hne, .inl rfl⟩)

/-- Before the script is played to its end, the phases entered are some of those before the last.
-/
theorem entries_front (h : notes <+: stager.script t batches) :
    .awaitPageCount :: entries notes <+: mainline.dropLast := by
  have hentries := entries_mono h
  rw [entries_script] at hentries
  exact List.cons_prefix_cons.mpr ⟨rfl, hentries⟩

theorem done_not_mem_front (h : notes <+: stager.script t batches) :
    .done ∉ Phase.awaitPageCount :: entries notes :=
  fun hmem => absurd ((entries_front h).subset hmem) (by decide)

theorem phaseAfter_front (h : notes <+: stager.script t batches) :
    phaseAfter .awaitPageCount notes ≠ .done := by
  intro hdone
  refine done_not_mem_front h (List.mem_of_getLast? ?_)
  rw [getLast?_entries, hdone]

section

variable {own : Progress} {outcome : Except Failure Result}
  (hstaged : Staged (stager.script t batches) own notes outcome)

include hstaged

theorem Staged.phases : ∃ passed jump, .awaitPageCount :: entries notes = passed ++ jump ∧
    passed <+: mainline ∧ Leaves passed jump := by
  rcases hstaged.notes_cases with rfl | rfl | ⟨front, hinitial, -, rfl | rfl⟩
  · exact ⟨[.awaitPageCount], [.skipped], rfl, by decide, .skipped⟩
  · refine ⟨mainline, [], ?_, List.prefix_rfl, .nowhere _⟩
    rw [entries_append, entries_script]
    rfl
  · have hfront := (entries_front hinitial).trans (List.dropLast_prefix _)
    exact ⟨_, [], (List.append_nil _).symm, hfront, .nowhere _⟩
  · have hfront := (entries_front hinitial).trans (List.dropLast_prefix _)
    refine ⟨_, [.failed], ?_, hfront, .failed (done_not_mem_front hinitial)⟩
    rw [entries_append]
    rfl

theorem Staged.skipped (hskipped : phaseAfter .awaitPageCount notes = .skipped) :
    Journal.statements notes = [] := by
  rcases hstaged.notes_cases with rfl | rfl | ⟨front, hinitial, -, rfl | rfl⟩
  · rfl
  · rw [phaseAfter_append] at hskipped
    cases hskipped
  · have hfront := List.mem_of_getLast? ((getLast?_entries _ notes).trans (congrArg some hskipped))
    exact absurd ((entries_front hinitial).subset hfront) (by decide)
  · rw [phaseAfter_append] at hskipped
    cases hskipped

variable (hindexes : stager.definer.indexes t = stager.indexes t)

include hindexes

theorem Staged.executions :
    executionsFrom .awaitPageCount notes <+: stager.executions t batches := by
  have hfront : ∀ front, front <+: stager.script t batches →
      executionsFrom .awaitPageCount front <+: stager.executions t batches := by
    rintro front ⟨rest, hrest⟩
    rw [← executionsFrom_script hindexes, ← hrest, executionsFrom_append]
    exact List.prefix_append _ _
  rcases hstaged.notes_cases with rfl | rfl | ⟨front, hinitial, -, rfl | rfl⟩
  · exact List.nil_prefix
  · rw [executionsFrom_append]
    exact (List.append_nil _).symm ▸ hfront _ List.prefix_rfl
  · exact hfront notes hinitial
  · rw [executionsFrom_append]
    exact (List.append_nil _).symm ▸ hfront front hinitial

theorem Staged.done_iff (hnodup : (stager.indexes t).Nodup) :
    phaseAfter .awaitPageCount notes = .done ↔
      ∀ sql ∈ stager.indexes t, sql ∈ Journal.statements notes := by
  rcases hstaged.notes_cases with rfl | rfl | ⟨front, hinitial, hne, hnotes⟩
  · refine iff_of_false (by decide) fun hall => ?_
    exact absurd (hall _ List.mem_cons_self) List.not_mem_nil
  · refine iff_of_true (by rw [phaseAfter_append]; rfl) fun sql hsql => ?_
    rw [statements_append, statements_eq_executions .awaitPageCount,
      executionsFrom_script hindexes]
    exact List.mem_append_left _ (by simp [Stager.executions, hsql])
  · obtain ⟨sql, hsql, hmissing⟩ := exists_missing hindexes hnodup hinitial hne
    rcases hnotes with rfl | rfl
    · exact iff_of_false (phaseAfter_front hinitial) fun hall => hmissing (hall sql hsql)
    · refine iff_of_false ?_ fun hall => hmissing ?_
      · rw [phaseAfter_append]
        nofun
      · have hexecuted := hall sql hsql
        rwa [statements_append, show Journal.statements abandonment = [] from rfl,
          List.append_nil] at hexecuted

end

/-- A table without columns is staged in order, whatever the files hold and wherever the database
fails. -/
theorem stage_in_order {stager : Stager} {t : Table} (hcolumns : t.columns = []) :
    ∃ batches, InOrder stager t (stager.stage.start { table := t }).2 batches := by
  obtain ⟨batches, notes, hcourse, hphase, hextends, hstaged⟩ :=
    stage_course stager { own := { table := t } }
  unfold Run.start
  generalize hrun : stager.stage.run { own := { table := t } } = run at *
  obtain ⟨outcome, session⟩ := run
  dsimp only at hcourse hphase hextends hstaged ⊢
  obtain ⟨fields, columns, hinfer, htable⟩ := hextends
  rw [hcolumns, List.nil_append] at htable
  have hinferred : infer t fields = ⟨session.own.table.columns, none⟩ := by rw [hinfer, htable]
  have hindexes : stager.definer.indexes session.own.table = stager.indexes session.own.table := by
    rw [htable]
    exact indexes_of_inferred hinfer stager.definer
  have hnodup := indexes_nodup stager (infer_named hinferred).nodup
  have hnotes : session.journal.toList.filter isMilestone = notes := hcourse
  have hexecutions : executionsFrom .awaitPageCount session.journal.toList
      = executionsFrom .awaitPageCount notes := by rw [← executionsFrom_filter, hnotes]
  have hstatements : Journal.statements session.journal.toList = Journal.statements notes := by
    rw [statements_eq_executions .awaitPageCount, hexecutions, ← statements_eq_executions]
  have hentries : entries session.journal.toList = entries notes := by
    rw [← entries_filter, hnotes]
  refine ⟨batches, ?_⟩
  constructor
  case inferred => exact ⟨fields, hinferred⟩
  case table => rw [htable]
  case executions =>
    rw [hexecutions]
    exact hstaged.executions hindexes
  case done_iff =>
    rw [hphase, hstatements]
    exact hstaged.done_iff hindexes hnodup
  case skipped =>
    rw [hphase, hstatements]
    exact hstaged.skipped
  case phases =>
    rw [hentries]
    exact hstaged.phases
  case phase =>
    rw [hentries, hphase]
    exact getLast?_entries _ notes

/-- Notes over a database that fails at the third INSERT statement. -/
def interruptedStager : Stager := { noteStager with executor := ⟨"postgresql", false, some 7⟩ }

theorem interrupted_in_order : noteTable.columns = [] ∧
    (interruptedStager.stage.start { table := noteTable }).2.own.phase = .load ∧
    (Journal.statements
      (interruptedStager.stage.start { table := noteTable }).2.journal.toList).length = 6 ∧
    ∃ batches, InOrder interruptedStager noteTable
      (interruptedStager.stage.start { table := noteTable }).2 batches :=
  ⟨rfl, by decide +kernel, by decide +kernel, stage_in_order rfl⟩

end Staging.Stage
