import Staging.Program
import Staging.Proofs.Stage.Turns

/-!
# A transaction for each table

What the database sees of a run over many tables is one transaction after the other, each with the
statements of one table, committed if the table could be staged and rolled back if not. The results
and the counted tables tell which (`start_bracketed`).
-/

namespace Staging.Stage

open Schema

variable {p : Plan} {turn : Turn} {journal notes : List Note}

/-! ## What the database sees -/

/-- Whether a note is about a transaction as a whole. -/
def isBound : Note → Bool
  | .began | .committed | .rolledBack => true
  | _ => false

/-- The transactions and the statements in a journal. -/
def trace (journal : List Note) : List Note :=
  journal.filter fun n => isBound n || match n with
    | .executed _ => true
    | _ => false

theorem trace_append (notes more : List Note) : trace (notes ++ more) = trace notes ++ trace more :=
  List.filter_append _ _

/-- Inside a transaction the database sees the statements. -/
theorem trace_eq_statements (h : ∀ n ∈ journal, isBound n = false) :
    trace journal = (Journal.statements journal).map .executed := by
  unfold trace Journal.statements
  induction journal with
  | nil => rfl
  | cons n journal ih =>
      rw [List.forall_mem_cons] at h
      rw [List.filter_cons, ih h.2]
      cases n <;> simp_all [isBound]

/-! ## A table by itself -/

/-- The milestones on the way: phases and statements. -/
def isStep : Note → Bool
  | .entered _ | .executed _ => true
  | _ => false

theorem isStep_of_mem_script {stager : Stager} {t : Table} {batches : List (List String)} :
    ∀ n ∈ stager.script t batches, isStep n = true := by
  rw [← List.all_eq_true]
  simp [Stager.script, Stager.filling, Stager.insertions, Stager.indexing, isStep]

/-- The last milestones of a table, by its outcome. -/
inductive Closes : Except Failure Result → List Note → Prop
  | done {result : Result} (h : result.phase = .done) : Closes (.ok result) completion
  | skipped {result : Result} (h : result.phase = .skipped) : Closes (.ok result) passing
  | failed {failure : Failure} (h : failure.isStaging = true) : Closes (.error failure) abandonment
  | broken {failure : Failure} (h : failure.isStaging = false) : Closes (.error failure) []

theorem Staged.closes {script : List Note} {own : Progress} {outcome : Except Failure Result}
    (h : Staged script own notes outcome) (hscript : ∀ n ∈ script, isStep n = true)
    (hphase : own.phase = phaseAfter .awaitPageCount notes) :
    ∃ front close, (∀ n ∈ front, isStep n = true) ∧ notes = front ++ close ∧
      Closes outcome close := by
  cases h with
  | ended h =>
      cases h with
      | skipped _ => exact ⟨[], passing, List.forall_mem_nil _, rfl, .skipped hphase⟩
      | played h =>
          refine ⟨script, completion, hscript, h, .done (hphase.trans ?_)⟩
          rw [show notes = script ++ completion from h, phaseAfter_append]
          rfl
  | abandoned hstaging hinitial _ =>
      exact ⟨_, abandonment, fun n hn => hscript n (hinitial.subset hn), rfl, .failed hstaging⟩
  | broken hstaging hinitial _ =>
      exact ⟨notes, [], fun n hn => hscript n (hinitial.subset hn), (List.append_nil _).symm,
        .broken hstaging⟩

/-- By itself a table is staged, unless there is no stager for it. -/
theorem take_cases (p : Plan) (turn : Turn) :
    (∃ failure, failure.isStaging = false ∧
      p.take turn = (.error failure, { sent := turn.sent, own := { table := turn.table } })) ∨
    ∃ stager : Stager,
      p.take turn = stager.stage.run { sent := turn.sent, own := { table := turn.table } } := by
  unfold Plan.take Plan.work Plan.stager
  cases hdialect : Sql.Dialect.ofName p.dialectName with
  | error failure =>
      have hstaging : failure.isStaging = false := by
        unfold Sql.Dialect.ofName at hdialect
        split at hdialect
        · cases hdialect
        · cases hdialect
          rfl
      exact .inl ⟨failure, hstaging, rfl⟩
  | ok dialect => exact .inr ⟨p.stagerIn dialect, rfl⟩

/-- The milestones of a table by itself. -/
theorem take_closes (p : Plan) (turn : Turn) :
    ∃ front close, (∀ n ∈ front, isStep n = true) ∧ course (p.take turn).2 = front ++ close ∧
      Closes (p.take turn).1 close := by
  rcases take_cases p turn with ⟨failure, hstaging, htake⟩ | ⟨stager, htake⟩
  · rw [htake]
    exact ⟨[], [], List.forall_mem_nil _, rfl, .broken hstaging⟩
  · obtain ⟨batches, notes, hcourse, hphase, -, hstaged⟩ :=
      stage_course stager { sent := turn.sent, own := { table := turn.table } }
    obtain ⟨front, close, hfront, rfl, hcloses⟩ := hstaged.closes isStep_of_mem_script hphase
    rw [htake]
    exact ⟨front, close, hfront, hcourse, hcloses⟩

/-- What is returned for a table is about that table. -/
theorem take_name (p : Plan) (turn : Turn) :
    (p.take turn).2.own.table.name = turn.table.name ∧
      ∀ result, (p.take turn).1 = .ok result → result.table = turn.table.name := by
  rcases take_cases p turn with ⟨failure, -, htake⟩ | ⟨stager, htake⟩
  · rw [htake]
    exact ⟨rfl, nofun⟩
  · obtain ⟨batches, notes, -, -, ⟨fields, columns, -, htable⟩, hstaged⟩ :=
      stage_course stager { sent := turn.sent, own := { table := turn.table } }
    rw [← htake] at htable hstaged
    have hname : (p.take turn).2.own.table.name = turn.table.name := by rw [htable]
    refine ⟨hname, fun result hresult => ?_⟩
    rw [hresult] at hstaged
    cases hstaged
    exact hname

theorem Closes.open {outcome : Except Failure Result} {close : List Note}
    (h : Closes outcome close) : ∀ n ∈ close, isBound n = false := by
  cases h <;> decide

theorem isMilestone_of_isBound {n : Note} (h : isBound n = true) : isMilestone n = true := by
  cases n <;> first
    | rfl
    | cases h

theorem isBound_of_isStep {n : Note} (h : isStep n = true) : isBound n = false := by
  cases n <;> first
    | rfl
    | cases h

/-- By itself a table is in no transaction. -/
theorem take_open (p : Plan) (turn : Turn) :
    ∀ n ∈ (p.take turn).2.journal.toList, isBound n = false := by
  intro n hn
  obtain ⟨front, close, hfront, hcourse, hcloses⟩ := take_closes p turn
  have hclosed : ∀ m ∈ course (p.take turn).2, isBound m = false := by
    rw [hcourse, List.forall_mem_append]
    exact ⟨fun m hm => isBound_of_isStep (hfront m hm), hcloses.open⟩
  by_contra hbound
  rw [Bool.not_eq_false] at hbound
  have hmem : n ∈ course (p.take turn).2 :=
    List.mem_filter.mpr ⟨hn, isMilestone_of_isBound hbound⟩
  exact Bool.noConfusion (hbound.symm.trans (hclosed n hmem))

/-- What the database sees of a table: its statements in a transaction, which is closed after what
came of the table. -/
def Plan.block (p : Plan) (turn : Turn) : List Note :=
  .began :: (Journal.statements (p.take turn).2.journal.toList).map .executed
    ++ [Run.closing (p.take turn).1]

theorem trace_notes (p : Plan) (turn : Turn) : trace (p.notes turn) = p.block turn := by
  have hclosing : trace [Run.closing (p.take turn).1] = [Run.closing (p.take turn).1] := by
    cases (p.take turn).1 <;> rfl
  have hcomplaint : trace (Plan.complaint turn.table (p.take turn).1) = [] := by
    unfold Plan.complaint
    split
    · rfl
    · split <;> rfl
  have hopened : trace [Plan.announcement turn.table, .began] = [.began] := rfl
  rw [Plan.notes, trace_append, trace_append, trace_append, hopened, hclosing, hcomplaint,
    trace_eq_statements (take_open p turn), Plan.block]
  simp

/-! ## Counted tables -/

/-- The phase that is counted for a table: the last one, unless a failure was not one of the data.
-/
def counted : Except Failure Result → Option Phase
  | .ok result => some result.phase
  | .error failure => if failure.isStaging then some .failed else none

theorem total_steps {series : Series} (h : ∀ n ∈ notes, isStep n = true) :
    Journal.total notes series = 0 := by
  have hnone : notes.filterMap Journal.tally? = [] := by
    rw [List.filterMap_eq_nil_iff]
    intro n hn
    have hstep := h n hn
    cases n <;> first
      | rfl
      | cases hstep
  rw [Journal.total, hnone]
  rfl

/-- Counted tables are milestones. -/
theorem total_filter (journal : List Note) (status : String) :
    Journal.total (journal.filter isMilestone) (.tablesStaged status)
      = Journal.total journal (.tablesStaged status) := by
  induction journal with
  | nil => rfl
  | cons n journal ih =>
      rw [← List.singleton_append, List.filter_append, total_append, total_append, ih]
      congr 1
      cases hn : isMilestone n with
      | true => rw [List.filter_cons_of_pos hn, List.filter_nil]
      | false =>
          rw [List.filter_cons_of_neg (by simp [hn]), List.filter_nil]
          refine (total_nil_of_ne ?_).symm
          rintro other amount htally rfl
          cases n <;> simp_all [Journal.tally?, isMilestone, Series.tablesStaged]

/-- The phases that tables are counted in. -/
def countedPhases : List Phase := [.done, .skipped, .failed]

theorem Closes.total {outcome : Except Failure Result} {close : List Note}
    (h : Closes outcome close) {phase : Phase} (hphase : phase ∈ countedPhases) :
    Journal.total close (.tablesStaged phase.name)
      = if counted outcome = some phase then 1 else 0 := by
  have hone : ∀ final, final ∈ countedPhases → Journal.total
      [.entered final, .counted (.tablesStaged final.name) 1] (.tablesStaged phase.name)
        = if some final = some phase then 1 else 0 := by
    revert phase
    decide
  cases h with
  | done h =>
      rw [counted, h]
      exact hone .done (by decide)
  | skipped h =>
      rw [counted, h]
      exact hone .skipped (by decide)
  | failed h =>
      rw [counted, if_pos h]
      exact hone .failed (by decide)
  | broken h =>
      rw [counted, h]
      rfl

theorem total_notes (p : Plan) (turn : Turn) {phase : Phase} (hphase : phase ∈ countedPhases) :
    Journal.total (p.notes turn) (.tablesStaged phase.name)
      = if counted (p.take turn).1 = some phase then 1 else 0 := by
  obtain ⟨front, close, hfront, hcourse, hcloses⟩ := take_closes p turn
  have htaken : Journal.total (p.take turn).2.journal.toList (.tablesStaged phase.name)
      = if counted (p.take turn).1 = some phase then 1 else 0 := by
    rw [← total_filter, show List.filter _ _ = front ++ close from hcourse, total_append,
      total_steps hfront, hcloses.total hphase, Nat.zero_add]
  have hclosing : Journal.total [Run.closing (p.take turn).1] (.tablesStaged phase.name) = 0 := by
    cases (p.take turn).1 <;> rfl
  have hcomplaint : Journal.total (Plan.complaint turn.table (p.take turn).1)
      (.tablesStaged phase.name) = 0 := by
    unfold Plan.complaint
    split
    · rfl
    · split <;> rfl
  have hopened : Journal.total [Plan.announcement turn.table, .began]
      (.tablesStaged phase.name) = 0 := rfl
  rw [Plan.notes, total_append, total_append, total_append, hopened, hclosing, hcomplaint, htaken]
  omega

/-- What is returned for a table says what was counted for it. -/
theorem counted_of_answer {result : Result} (h : p.answer turn = .ok result) :
    counted (p.take turn).1 = some result.phase := by
  unfold Plan.answer at h
  cases htake : (p.take turn).1 with
  | ok returned =>
      rw [htake] at h
      cases h
      rfl
  | error failure =>
      rw [htake] at h
      dsimp only at h
      split at h
      · rename_i hgoes
        rw [Bool.and_eq_true] at hgoes
        cases h
        rw [counted, if_pos hgoes.1]
        rfl
      · cases h

theorem total_answered {turns : List Turn} {results : List Result}
    (h : List.Forall₂ (fun turn result => p.answer turn = .ok result) turns results)
    {phase : Phase} (hphase : phase ∈ countedPhases) :
    Journal.total (turns.flatMap p.notes) (.tablesStaged phase.name)
      = results.countP (·.phase = phase) := by
  induction h with
  | nil => rfl
  | @cons turn result turns results hanswer _ ih =>
      rw [List.flatMap_cons, total_append, ih, total_notes p turn hphase,
        counted_of_answer hanswer, List.countP_cons, Nat.add_comm]
      simp

/-! ## Many tables -/

/-- What is returned for a table: what staging it returned, and for one that failed that it did. -/
structure Reports (p : Plan) (turn : Turn) (result : Result) : Prop where
  table : result.table = turn.table.name
  returned : ∀ returned, (p.take turn).1 = .ok returned → result = returned
  failed_iff : result.phase = .failed ↔ ∃ failure, (p.take turn).1 = .error failure

/-- A table that was staged is done or was skipped. -/
theorem phase_of_take {result : Result} (h : (p.take turn).1 = .ok result) :
    result.phase = .done ∨ result.phase = .skipped := by
  obtain ⟨front, close, -, -, hcloses⟩ := take_closes p turn
  rw [h] at hcloses
  cases hcloses with
  | done h => exact .inl h
  | skipped h => exact .inr h

theorem reports_of_answer {result : Result} (h : p.answer turn = .ok result) :
    Reports p turn result := by
  obtain ⟨hname, hreturned⟩ := take_name p turn
  unfold Plan.answer at h
  cases htake : (p.take turn).1 with
  | ok returned =>
      rw [htake] at h
      obtain rfl := Except.ok.inj h
      refine ⟨hreturned _ htake, fun _ heq => ?_, ?_⟩
      · exact Except.ok.inj (htake.symm.trans heq)
      · refine iff_of_false ?_ (by simp [htake])
        rcases phase_of_take htake with hdone | hskipped
        · simp [hdone]
        · simp [hskipped]
  | error failure =>
      rw [htake] at h
      dsimp only at h
      split at h
      · obtain rfl := Except.ok.inj h
        exact ⟨hname, by simp [htake], iff_of_true rfl ⟨failure, htake⟩⟩
      · cases h

/-- What is known of a run over the tables at some places, by the turns that were taken. -/
structure Bracketed (p : Plan) (places : List Nat) (tables : List Table)
    (outcome : Except Failure (List Result)) (session : Session (List Table))
    (turns : List Turn) : Prop where
  /-- The tables take their turns, up to one that ends the run. -/
  taken : ∃ stop, p.Turns 0 tables places turns session.own stop ∧
    ∀ failure, stop = some failure ↔ outcome = .error failure
  seen : trace session.journal.toList = turns.flatMap p.block
  staged : ∀ turn ∈ turns, ∀ result, (p.take turn).1 = .ok result →
    result.phase = .done ∨ result.phase = .skipped
  returned : ∀ results, outcome = .ok results → List.Forall₂ (Reports p) turns results ∧
    ∀ phase ∈ countedPhases, Journal.total session.journal.toList (.tablesStaged phase.name)
      = results.countP (·.phase = phase)
  raised : ∀ failure, outcome = .error failure →
    ∃ earlier last, turns = earlier ++ [last] ∧ p.Halts last failure

theorem trace_flatMap (p : Plan) (turns : List Turn) :
    trace (turns.flatMap p.notes) = turns.flatMap p.block := by
  unfold trace
  rw [List.filter_flatMap]
  exact List.flatMap_congr fun turn _ => trace_notes p turn

theorem start_bracketed (p : Plan) (places : List Nat) (tables : List Table) : ∃ turns,
    Bracketed p places tables ((p.stagePlaces places).start tables).1
      ((p.stagePlaces places).start tables).2 turns := by
  obtain ⟨turns, stop, hturns, hanswered, hjournal⟩ :=
    p.run_stagePlaces places (s := { own := tables }) rfl
  rw [show ((({ own := tables } : Session (List Table)).journal.toList)) = [] from rfl,
    List.nil_append] at hjournal
  unfold Run.start
  generalize (p.stagePlaces places).run { own := tables } = run at *
  obtain ⟨outcome, session⟩ := run
  dsimp only at hturns hanswered hjournal ⊢
  refine ⟨turns, ⟨stop, hturns, ?_⟩, ?_, ?_, ?_, ?_⟩
  · intro failure
    cases outcome with
    | ok results => simp [hanswered.1]
    | error other => simp [hanswered.1]
  · rw [hjournal, trace_flatMap]
  · exact fun turn _ result htake => phase_of_take htake
  · rintro results rfl
    refine ⟨hanswered.2.imp fun _ _ => reports_of_answer, fun phase hphase => ?_⟩
    rw [hjournal, total_answered hanswered.2 hphase]
  · rintro failure rfl
    exact hanswered.2

/-! ## The program -/

/-- No transaction was rolled back on the way, and no table is being staged where none was. -/
structure Calm {σ : Type} (s s' : Session σ) : Prop where
  table : s'.table = s.table
  rolledBack : .rolledBack ∈ s'.journal.toList → .rolledBack ∈ s.journal.toList

variable {σ : Type}

theorem chain_calm : Run.Chain (Calm (σ := σ)) where
  refl _ := ⟨rfl, id⟩
  trans h h' := ⟨h'.table.trans h.table, h.rolledBack ∘ h'.rolledBack⟩

theorem calm_note {n : Note} (h : n ≠ .rolledBack) : Run.Along Calm (Run.note n : Run σ Unit) := by
  refine fun s => ⟨rfl, fun hmem => ?_⟩
  rw [Run.run_note, Array.toList_push, List.mem_append, List.mem_singleton] at hmem
  exact hmem.resolve_right (Ne.symm h)

theorem calm_check (database : Database) : Run.Along Calm (database.check : Run σ Bool) := by
  unfold Database.check
  split
  · refine chain_calm.bind (calm_note nofun) fun _ => chain_calm.bind (calm_note nofun) fun _ => ?_
    exact chain_calm.bind (calm_note nofun) fun _ => chain_calm.pure _
  · exact chain_calm.pure _

theorem calm_announce (level : Log.Level) (message : String) :
    Run.Along Calm (Program.announce level message : Run σ Unit) :=
  chain_calm.bind (fun s => chain_calm.refl s) fun _ => calm_note nofun

/-- Only the transaction of a table that failed is rolled back. -/
theorem rolledBack_mem_notes (h : .rolledBack ∈ p.notes turn) :
    ∃ failure, (p.take turn).1 = .error failure := by
  have hmem : .rolledBack ∈ trace (p.notes turn) := List.mem_filter.mpr ⟨h, rfl⟩
  rw [trace_notes, Plan.block] at hmem
  cases htake : (p.take turn).1 with
  | ok result => simp [htake, Run.closing] at hmem
  | error failure => exact ⟨failure, rfl⟩

/-- A run in which no table failed rolled nothing back. -/
theorem calm_stageTables {tables : List Table} {results : List Result}
    {s s' : Session (List Table)} (hs : s.table = none)
    (h : (p.stageTables tables).run s = (.ok results, s'))
    (hnone : ∀ result ∈ results, result.phase ≠ .failed)
    (hmem : .rolledBack ∈ s'.journal.toList) : .rolledBack ∈ s.journal.toList := by
  unfold Plan.stageTables at h
  rw [Run.run_bind_ok (Run.run_modifyOwn _ _)] at h
  obtain ⟨turns, stop, -, hanswered, hjournal⟩ :=
    p.run_stagePlaces (List.range tables.length) (s := { s with own := tables }) hs
  rw [h] at hanswered hjournal
  rw [show s'.journal.toList = _ from hjournal, List.mem_append] at hmem
  refine hmem.resolve_right fun hturns => ?_
  obtain ⟨turn, hturn, hnote⟩ := List.mem_flatMap.mp hturns
  obtain ⟨result, hresult, hanswer⟩ := exists_of_mem_forall₂ hanswered.2 hturn
  exact hnone result hresult ((reports_of_answer hanswer).failed_iff.mpr
    (rolledBack_mem_notes hnote))

theorem exitCode_eq_zero {results : List Result} (h : Program.exitCode results = 0) :
    ∀ result ∈ results, result.phase ≠ .failed := by
  unfold Program.exitCode at h
  split at h
  · cases h
  · rename_i hany
    simpa using hany

/-- A catalog that was staged with success has rolled nothing back. -/
theorem calm_stageCatalog {files : Directory} {database : Database} {settings : Settings}
    {s s' : Session (List Table)} (hs : s.table = none)
    (h : (Program.stageCatalog files database settings).run s = (.ok 0, s')) :
    .rolledBack ∈ s'.journal.toList → .rolledBack ∈ s.journal.toList := by
  unfold Program.stageCatalog at h
  obtain ⟨⟨⟩, s₁, hannounced, h⟩ := Run.bind_ok h
  have hbefore := calm_announce Log.Level.info ("Staging tables from: " ++ settings.loadDir) s
  rw [hannounced] at hbefore
  rw [Run.run_bind_ok (Run.run_attempt _ _)] at h
  cases hstaged : (Plan.stageTables ⟨files, database.executor, settings.loadDir, settings, none⟩
      catalog).run s₁ with
  | mk outcome s₂ =>
  rw [hstaged] at h
  cases outcome with
  | ok results =>
      obtain ⟨⟨⟩, s₃, hsummed, h⟩ := Run.bind_ok h
      obtain ⟨hexit, rfl⟩ := Run.pure_ok h
      have hafter : Calm s₂ s₃ := by
        have hsummary := chain_calm.forM (l := results)
          (fun r _ => calm_announce Log.Level.info (Program.summary r)) s₂
        rwa [hsummed] at hsummary
      intro hmem
      exact hbefore.rolledBack (calm_stageTables (hbefore.table.trans hs) hstaged
        (exitCode_eq_zero hexit) (hafter.rolledBack hmem))
  | error failure =>
      dsimp only at h
      split at h
      · obtain ⟨⟨⟩, s₃, -, h⟩ := Run.bind_ok h
        cases (Run.pure_ok h).1
      · cases h

/-- A program that ends with success has rolled nothing back. -/
theorem rolledBack_not_mem {environment : List (String × String)} {files : Directory}
    {database : Database} (h : (Program.run environment files database).exit = .ok 0) :
    .rolledBack ∉ (Program.run environment files database).journal := by
  unfold Program.run at h ⊢
  cases hsetup : Program.setup environment with
  | error failure =>
      rw [hsetup] at h
      cases h
  | ok setup =>
      rw [hsetup] at h
      dsimp only at h ⊢
      unfold Run.start at h ⊢
      cases hrun : (Program.runWith files database setup.settings).run { own := [] } with
      | mk outcome session =>
      rw [hrun] at h
      obtain rfl : outcome = .ok 0 := h
      unfold Program.runWith at hrun
      obtain ⟨answers, s₁, hcheck, hrun⟩ := Run.bind_ok hrun
      have hbefore := calm_check database ({ own := [] } : Session (List Table))
      rw [hcheck] at hbefore
      intro hmem
      split at hrun
      · exact absurd (hbefore.rolledBack (calm_stageCatalog hbefore.table hrun hmem))
          List.not_mem_nil
      · obtain ⟨⟨⟩, s₂, -, hrun⟩ := Run.bind_ok hrun
        cases (Run.pure_ok hrun).1

/-- Over any tables, files, settings and database, each table has a transaction of its own. -/
theorem tables_bracketed :
    (∀ (p : Plan) (places : List Nat) (tables : List Table), ∃ turns,
      Bracketed p places tables ((p.stagePlaces places).start tables).1
        ((p.stagePlaces places).start tables).2 turns) ∧
    (∀ (p : Plan) (tables : List Table), (p.stageTables tables).start []
      = (p.stagePlaces (List.range tables.length)).start tables) ∧
    ∀ environment files database, (Program.run environment files database).exit = .ok 0 →
      .rolledBack ∉ (Program.run environment files database).journal :=
  ⟨start_bracketed, fun _ _ => rfl, fun _ _ _ => rolledBack_not_mem⟩

/-- A database over which nothing fails. -/
def soundDatabase : Database := { dialectName := "postgresql" }

/-- Groups were extracted, and nothing else. -/
def groupFiles : Directory := fun path =>
  if path = "./extract/user_groups_count.txt" then .file "1".toUTF8.toList
  else if path = "./extract/user_groups_0.json" then .file "[\x7b\"id\":\"a\"\x7d]".toUTF8.toList
  else .missing

/-- The groups are staged, and all other tables skipped. -/
theorem groups_committed :
    (Program.run [] groupFiles soundDatabase).exit = .ok 0 ∧
      (Journal.statements (Program.run [] groupFiles soundDatabase).journal).length = 7 ∧
      .rolledBack ∉ (Program.run [] groupFiles soundDatabase).journal := by
  have hexit : (Program.run [] groupFiles soundDatabase).exit = .ok 0 := by
    decide +kernel
  exact ⟨hexit, by decide +kernel, tables_bracketed.2.2 _ _ _ hexit⟩

end Staging.Stage
