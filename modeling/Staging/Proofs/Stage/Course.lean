import Staging.Proofs.Stage.Milestones

/-!
# The course of a table

Staging a table follows a script: the phases one after the other, each with its statements. It
follows the script to the end, or breaks off somewhere before it, but takes no step out of turn
(`takePasses_course`). Around the script a table may be skipped, or marked as failed; these are all
the ways in which staging ends (`stage_course`), over whatever files and database.
-/

namespace Staging.Stage

open Sql Page Schema

variable {α β : Type} {stager : Stager} {p p' p'' : Session Progress} {notes : List Note}

/-! ## Reaching milestones -/

/-- The phase after these notes, if `phase` was the one before them. -/
def phaseAfter (phase : Phase) (notes : List Note) : Phase :=
  notes.foldl (fun phase n => match n with
    | .entered next => next
    | _ => phase) phase

theorem phaseAfter_append (phase : Phase) (notes more : List Note) :
    phaseAfter phase (notes ++ more) = phaseAfter (phaseAfter phase notes) more :=
  List.foldl_append

theorem phaseAfter_executed (phase : Phase) (statements : List String) :
    phaseAfter phase (statements.map .executed) = phase := by
  induction statements with
  | nil => rfl
  | cons sql statements ih => exact ih

/-- Just these milestones are reached, and the table and its pages are left alone. -/
structure Reaches (notes : List Note) (p p' : Session Progress) : Prop where
  course : course p' = course p ++ notes
  phase : p'.own.phase = phaseAfter p.own.phase notes
  table : p'.own.table = p.own.table
  pageCount : p'.own.pageCount = p.own.pageCount

theorem Reaches.refl (p : Session Progress) : Reaches [] p p :=
  ⟨(List.append_nil _).symm, rfl, rfl, rfl⟩

theorem Reaches.trans {more : List Note} (h : Reaches notes p p') (h' : Reaches more p' p'') :
    Reaches (notes ++ more) p p'' where
  course := by rw [h'.course, h.course, List.append_assoc]
  phase := by rw [h'.phase, h.phase, phaseAfter_append]
  table := h'.table.trans h.table
  pageCount := h'.pageCount.trans h.pageCount

theorem Reaches.pages_eq (h : Reaches notes p p') (stager : Stager) :
    stager.pages p'.own = stager.pages p.own := by
  rw [Stager.pages, Stager.pages, h.table, h.pageCount]

theorem reaches_of_stays (h : Stays (fun _ => False) p p') : Reaches [] p p' := by
  obtain ⟨htable, hcount, hphase, notes, hcourse, hnotes⟩ := h
  obtain rfl := List.eq_nil_iff_forall_not_mem.mpr hnotes
  exact ⟨hcourse, hphase, htable, hcount⟩

/-- Where nothing but INSERT statements is allowed, just some of them were executed. -/
theorem reaches_of_insertions {w : Inserter} (h : Stays (IsInsertion w) p p') :
    ∃ batches : List (List String), Reaches ((batches.map w.statement).map .executed) p p' := by
  obtain ⟨htable, hcount, hphase, notes, hcourse, hnotes⟩ := h
  have hbatches : ∃ batches : List (List String),
      notes = (batches.map w.statement).map .executed := by
    clear hcourse
    induction notes with
    | nil => exact ⟨[], rfl⟩
    | cons n notes ih =>
        obtain ⟨⟨rows, rfl⟩, hmore⟩ := List.forall_mem_cons.mp hnotes
        obtain ⟨batches, rfl⟩ := ih hmore
        exact ⟨rows :: batches, rfl⟩
  obtain ⟨batches, rfl⟩ := hbatches
  exact ⟨batches, hcourse, by rw [hphase, phaseAfter_executed], htable, hcount⟩

/-! ## Following a script -/

section

variable {script more ending : List Note}

/-- What came of these notes of a script: all of them and then the ending, or not all of them. -/
def IsPlayed (script ending notes : List Note) : Except Failure α → Prop
  | .ok _ => notes = script ++ ending
  | .error _ => notes <+: script ∧ notes ≠ script

/-- The run reaches the milestones of the script in order, and then at once those of the ending; or
it breaks off before the end of the script. -/
def Follows (script ending : List Note) (x : Run Progress α) (p : Session Progress) : Prop :=
  ∃ notes, Reaches notes p (x.run p).2 ∧ IsPlayed script ending notes (x.run p).1

theorem IsPlayed.prepend {outcome : Except Failure α} (h : IsPlayed more ending notes outcome) :
    IsPlayed (script ++ more) ending (script ++ notes) outcome := by
  cases outcome with
  | ok _ => exact (congrArg (script ++ ·) h).trans (List.append_assoc _ _ _).symm
  | error failure =>
      refine ⟨(List.prefix_append_right_inj script).mpr h.1, fun heq => h.2 ?_⟩
      exact List.append_cancel_left heq

theorem follows_of_ok {x : Run Progress α} {a : α} (hrun : x.run p = (.ok a, p'))
    (h : Reaches (script ++ ending) p p') : Follows script ending x p := by
  unfold Follows
  rw [hrun]
  exact ⟨_, h, rfl⟩

/-- Where the first step breaks off is before the end of the whole. -/
theorem Follows.sequence {γ : Type} [Inhabited γ] (more : γ → List Note) {x : Run Progress α}
    {f : α → Run Progress β}
    (hx : ∃ notes, Reaches notes p (x.run p).2 ∧ match (x.run p).1 with
      | .ok _ => notes = script
      | .error _ => notes <+: script ∧ notes ≠ script ++ more default)
    (hf : ∀ a p', x.run p = (.ok a, p') → Reaches script p p' →
      ∃ c, Follows (more c) ending (f a) p') :
    ∃ c, Follows (script ++ more c) ending (x >>= f) p := by
  obtain ⟨notes, hreaches, hplayed⟩ := hx
  unfold Follows
  cases hrun : x.run p with
  | mk outcome p' =>
      rw [hrun] at hreaches hplayed
      cases outcome with
      | error failure =>
          obtain ⟨hinitial, hne⟩ := hplayed
          rw [Run.run_bind_error hrun]
          exact ⟨default, notes, hreaches, hinitial.trans (List.prefix_append _ _), hne⟩
      | ok a =>
          obtain rfl : notes = script := hplayed
          obtain ⟨c, notes', hreaches', hplayed'⟩ := hf a p' hrun hreaches
          rw [Run.run_bind_ok hrun]
          exact ⟨c, notes ++ notes', hreaches.trans hreaches', hplayed'.prepend⟩

/-- How the script goes on may only be known after the first step. -/
theorem Follows.bind_exists {γ : Type} [Inhabited γ] (more : γ → List Note) {x : Run Progress α}
    {f : α → Run Progress β} (hx : Follows script [] x p)
    (hf : ∀ a p', x.run p = (.ok a, p') → Reaches script p p' →
      ∃ c, Follows (more c) ending (f a) p') :
    ∃ c, Follows (script ++ more c) ending (x >>= f) p := by
  obtain ⟨notes, hreaches, hplayed⟩ := hx
  refine Follows.sequence more ⟨notes, hreaches, ?_⟩ hf
  split <;> rename_i outcome houtcome <;> rw [houtcome] at hplayed
  · exact hplayed.trans (List.append_nil _)
  · obtain ⟨hinitial, hne⟩ := hplayed
    refine ⟨hinitial, fun heq => hne (hinitial.eq_of_length_le ?_)⟩
    rw [heq, List.length_append]
    omega

theorem Follows.bind {x : Run Progress α} {f : α → Run Progress β} (hx : Follows script [] x p)
    (hf : ∀ a p', x.run p = (.ok a, p') → Reaches script p p' → Follows more ending (f a) p') :
    Follows (script ++ more) ending (x >>= f) p := by
  have hall : ∃ _ : Unit, Follows (script ++ more) ending (x >>= f) p :=
    hx.bind_exists (fun _ => more) fun a p' hrun hreaches => ⟨(), hf a p' hrun hreaches⟩
  exact hall.choose_spec

/-- A first step that may break off anywhere is before the end of a script that goes on. -/
theorem Follows.after {x : Run Progress α} {f : α → Run Progress β}
    (hx : Reaches notes p (x.run p).2) (hmore : more ≠ [])
    (hf : ∀ a p', x.run p = (.ok a, p') → Reaches notes p p' → Follows more ending (f a) p') :
    Follows (notes ++ more) ending (x >>= f) p := by
  have hplayed : ∃ notes', Reaches notes' p (x.run p).2 ∧ match (x.run p).1 with
      | .ok _ => notes' = notes
      | .error _ => notes' <+: notes ∧ notes' ≠ notes ++ more := by
    refine ⟨notes, hx, ?_⟩
    split
    · rfl
    · refine ⟨List.prefix_rfl, fun heq => hmore ?_⟩
      exact List.append_cancel_left (heq.symm.trans (List.append_nil notes).symm)
  have hall : ∃ _ : Unit, Follows (notes ++ more) ending (x >>= f) p :=
    Follows.sequence (fun _ => more) hplayed fun a p' hrun hreaches =>
      ⟨(), hf a p' hrun hreaches⟩
  exact hall.choose_spec

theorem Follows.own {f : Progress → Run Progress β} (h : Follows script ending (f p.own) p) :
    Follows script ending (Run.own >>= f) p := by
  unfold Follows
  rwa [Run.run_bind_ok (Run.run_own p)]

/-- A first step without milestones is not in the script. -/
theorem Follows.idle {x : Run Progress α} {f : α → Run Progress β}
    (hx : Run.Along (Stays fun _ => False) x) (hmore : more ≠ [])
    (hf : ∀ a p', x.run p = (.ok a, p') → Reaches [] p p' → Follows more ending (f a) p') :
    Follows more ending (x >>= f) p :=
  Follows.after (reaches_of_stays (hx p)) hmore hf

end

/-! ## Statements -/

theorem follows_execute (executor : Executor) (sql : String) (p : Session Progress) :
    Follows [.executed sql] [] (Run.execute executor sql) p := by
  unfold Follows
  have hstays : Stays (fun n => n = .executed sql) p ((Run.execute executor sql).run p).2 := by
    apply stays_execute
    rfl
  cases hrun : (Run.execute executor sql).run p with
  | mk outcome p' =>
      rw [hrun] at hstays
      cases outcome with
      | ok _ =>
          have hcourse : course p' = course p ++ [.executed sql] := by
            obtain ⟨-, -, -, -, hjournal⟩ := Run.execute_ok hrun
            rw [course, hjournal, List.filter_append, Run.execution]
            split <;> rfl
          exact ⟨_, ⟨hcourse, hstays.phase, hstays.table, hstays.pageCount⟩, rfl⟩
      | error failure =>
          have hcourse : course p' = course p := by
            have hnone : (Run.refusal executor sql).filter isMilestone = [] := by
              unfold Run.refusal
              split <;> rfl
            obtain ⟨-, hjournal⟩ := Run.execute_error hrun
            rw [course, hjournal, List.filter_append, hnone, List.append_nil]
            rfl
          refine ⟨[], ⟨?_, hstays.phase, hstays.table, hstays.pageCount⟩, List.nil_prefix,
            (List.cons_ne_nil _ _).symm⟩
          rw [hcourse, List.append_nil]

theorem follows_definition (executor : Executor) (sql : String) (p : Session Progress) :
    Follows [.executed sql] [] (Definer.execute executor sql) p :=
  Follows.idle (stays_log _ _ _ _) (List.cons_ne_nil _ _) fun _ p' _ _ =>
    follows_execute executor sql p'

theorem follows_definitions (executor : Executor) (statements : List String)
    (p : Session Progress) :
    Follows (statements.map .executed) [] (statements.forM (Definer.execute executor)) p := by
  induction statements generalizing p with
  | nil => exact follows_of_ok rfl (Reaches.refl p)
  | cons sql statements ih =>
      exact (follows_definition executor sql p).bind fun _ p' _ _ => ih p'

/-! ## Phases -/

theorem run_enter (phase : Phase) (p : Session Progress) :
    ∃ p', (enter phase).run p = (.ok (), p') ∧ Reaches [.entered phase] p p' ∧
      p'.own = { p.own with phase := phase } := by
  refine ⟨_, rfl, ⟨?_, rfl, rfl, rfl⟩, rfl⟩
  show List.filter isMilestone ((p.journal.push (.logged _)).push (.entered phase)).toList = _
  rw [Array.toList_push, Array.toList_push, List.append_assoc, List.filter_append]
  rfl

theorem follows_enter (phase : Phase) (p : Session Progress) :
    Follows [.entered phase] [] (enter phase) p := by
  obtain ⟨p', hrun, hreaches, -⟩ := run_enter phase p
  exact follows_of_ok hrun hreaches

/-! ## The script -/

/-- The statements that create the loading table. -/
def Stager.definitions (s : Stager) (t : Table) : List String :=
  s.definer.create t :: (if s.definer.isDescribed t then [s.definer.comment t] else [])
    ++ s.definer.grants t

/-- The second pass, if the rows go into these INSERT statements. -/
def Stager.insertions (s : Stager) (t : Table) (batches : List (List String)) : List Note :=
  (batches.map (s.inserter t).statement).map .executed

def Stager.indexing (s : Stager) (t : Table) : List Note :=
  .entered .index :: (s.definer.indexes t).map .executed

/-- The phases and statements from the first statement on. -/
def Stager.filling (s : Stager) (t : Table) (batches : List (List String)) : List Note :=
  (s.definitions t).map .executed ++ .entered .load :: (s.insertions t batches ++ s.indexing t)

/-- All phases and statements but the last phase. -/
def Stager.script (s : Stager) (t : Table) (batches : List (List String)) : List Note :=
  [.entered .analyze, .entered .buildSchema] ++ .entered .createTable :: s.filling t batches

/-- How a table is done. -/
def completion : List Note := [.entered .done, .counted (.tablesStaged Phase.done.name) 1]

theorem follows_createTable (stager : Stager) (t : Table) (p : Session Progress) :
    Follows ((stager.definitions t).map .executed) []
      (stager.definer.createTable stager.executor t) p := by
  unfold Stager.definitions Definer.createTable
  refine (follows_definition _ _ p).bind fun _ p₁ _ _ => ?_
  split
  · refine Follows.idle (stays_log _ _ _ _) (List.cons_ne_nil _ _) fun _ p₂ _ _ => ?_
    refine (follows_definition _ _ p₂).bind fun _ p₃ _ _ => ?_
    exact follows_definitions _ _ p₃
  · exact follows_definitions _ _ p₁

theorem primaryKey_mem_indexes (d : Definer) (t : Table) : d.primaryKey t ∈ d.indexes t := by
  unfold Definer.indexes
  cases hid : t.idColumn? with
  | none => exact List.mem_append_left _ List.mem_cons_self
  | some c =>
      refine List.mem_append_right _ (List.mem_flatMap.mpr ⟨c, List.mem_of_find?_eq_some hid, ?_⟩)
      rw [if_pos (by simpa using List.find?_some hid)]
      exact List.mem_cons_self

theorem follows_indexTable (stager : Stager) (t : Table) (p : Session Progress) :
    Follows ((stager.definer.indexes t).map .executed) []
      (stager.definer.indexTable stager.executor t) p := by
  have hkey := List.mem_map_of_mem (f := Note.executed) (primaryKey_mem_indexes stager.definer t)
  exact Follows.idle (stays_log _ _ _ _) (List.ne_nil_of_mem hkey) fun _ p₁ _ _ =>
    follows_definitions _ _ p₁

/-- The steps after the second pass. -/
def Stager.conclude (s : Stager) : Run Progress Unit := do
  enter .index
  s.definer.indexTable s.executor (← Run.own).table
  enter .done
  Run.count (.tablesStaged Phase.done.name) 1

theorem follows_conclude (stager : Stager) (p : Session Progress) :
    Follows (stager.indexing p.own.table) completion stager.conclude p := by
  refine (follows_enter .index p).bind fun _ p₁ _ h₁ => Follows.own ?_
  rw [h₁.table, ← List.append_nil (List.map _ _)]
  refine (follows_indexTable stager p.own.table p₁).bind fun _ p₂ _ _ => ?_
  obtain ⟨p₃, hrun, hreaches, -⟩ := run_enter .done p₂
  exact follows_of_ok (Run.run_bind_ok hrun) (hreaches.trans ⟨course_note _ p₃, rfl, rfl, rfl⟩)

/-- The steps after the loading table was created. -/
def Stager.loadAndConclude (s : Stager) : Run Progress Unit := do
  let records ← Stager.timedPass .load s.load
  Run.modifyOwn fun p => { p with records := records }
  s.conclude

section

variable {docs : List Json} (hdocs : List.Forall₂ (Holds stager.files) (stager.pages p.own) docs)

include hdocs

theorem follows_loadAndConclude : ∃ batches,
    Follows (stager.insertions p.own.table batches ++ stager.indexing p.own.table) completion
      stager.loadAndConclude p := by
  have hstays : Stays (IsInsertion (stager.inserter p.own.table)) p
      ((Stager.timedPass .load stager.load).run p).2 := by
    refine stays_timedPass fun q hown => ?_
    rw [← hown]
    exact stays_load (by rwa [hown])
  obtain ⟨batches, hreaches⟩ := reaches_of_insertions hstays
  refine ⟨batches, Follows.after hreaches (List.cons_ne_nil _ _) fun records p₁ _ h₁ => ?_⟩
  refine Follows.idle (stays_tally (fun _ => records) (·.statements)) (List.cons_ne_nil _ _)
    fun _ p₂ _ h₂ => ?_
  have hconclude := follows_conclude stager p₂
  rwa [h₂.table, h₁.table] at hconclude

/-- Over pages that hold documents, the statements and phases from the first statement on are those
of the script. -/
theorem follows_fill :
    ∃ batches, Follows (stager.filling p.own.table batches) completion stager.fill p := by
  obtain ⟨batches, hfollows⟩ := (follows_createTable stager p.own.table p).bind_exists
    (fun batches => .entered .load
      :: (stager.insertions p.own.table batches ++ stager.indexing p.own.table))
    (f := fun _ => do enter .load; stager.loadAndConclude) fun _ p₁ _ h₁ =>
      (follows_enter .load p₁).bind_exists _ fun _ p₂ _ h₂ => by
        have hpages : List.Forall₂ (Holds stager.files) (stager.pages p₂.own) docs := by
          rwa [h₂.pages_eq, h₁.pages_eq]
        obtain ⟨batches, hload⟩ := follows_loadAndConclude hpages
        rw [h₂.table, h₁.table] at hload
        exact ⟨batches, hload⟩
  exact ⟨batches, Follows.own hfollows⟩

theorem follows_createAndFill : ∃ batches,
    Follows (.entered .createTable :: stager.filling p.own.table batches) completion
      (do enter .createTable; stager.fill) p := by
  refine (follows_enter .createTable p).bind_exists _ fun _ p₁ _ h₁ => ?_
  have hpages : List.Forall₂ (Holds stager.files) (stager.pages p₁.own) docs := by
    rwa [h₁.pages_eq]
  have hfill := follows_fill hpages
  rwa [h₁.table] at hfill

end

/-! ## The schema -/

/-- The steps before the schema: pass one. -/
def Stager.survey (s : Stager) : Run Progress Statistics := do
  enter .analyze
  let statistics ← Stager.timedPass .analyze s.analyze
  statistics.report (← Run.own).table.name
  enter .buildSchema
  return statistics

theorem takePasses_eq_survey (s : Stager) : s.takePasses = (do
    let statistics ← s.survey
    Stager.buildSchema statistics
    enter .createTable
    s.fill) := by
  simp only [Stager.takePasses, Stager.survey, Stager.fill, bind_assoc, pure_bind]

theorem follows_survey (stager : Stager) (p : Session Progress) :
    Follows [.entered .analyze, .entered .buildSchema] [] stager.survey p := by
  refine (follows_enter .analyze p).bind fun _ p₁ _ _ => ?_
  refine Follows.idle (fun q => stays_timedPass fun q₁ _ => stays_analyze stager q₁)
    (List.cons_ne_nil _ _) fun statistics p₂ _ _ => Follows.own ?_
  refine Follows.idle (stays_report _ _) (List.cons_ne_nil _ _) fun _ p₃ _ _ => ?_
  have hlast : Follows ([.entered .buildSchema] ++ []) []
      (do enter .buildSchema; return statistics) p₃ :=
    (follows_enter .buildSchema p₃).bind fun _ p₄ _ _ => follows_of_ok rfl (Reaches.refl p₄)
  exact hlast

/-- Pass one goes through the documents that the pages hold. -/
theorem survey_ok {statistics : Statistics} (h : stager.survey.run p = (.ok statistics, p')) :
    ∃ docs, List.Forall₂ (Holds stager.files) (stager.pages p.own) docs ∧
      statistics = Statistics.of (recordsOfAll docs) := by
  obtain ⟨p₁, hrun, hreaches, -⟩ := run_enter .analyze p
  rw [Stager.survey, Run.run_bind_ok hrun] at h
  obtain ⟨statistics', p₂, hpass, h⟩ := Run.bind_ok h
  obtain ⟨docs, hdocs, hstatistics, -⟩ := timedAnalyze_ok hpass
  rw [hreaches.pages_eq] at hdocs
  rw [Run.run_bind_ok (Run.run_own p₂)] at h
  obtain ⟨⟨⟩, p₃, -, h⟩ := Run.bind_ok h
  obtain ⟨⟨⟩, p₄, -, h⟩ := Run.bind_ok h
  obtain ⟨rfl, -⟩ := Run.pure_ok h
  exact ⟨docs, hdocs, hstatistics⟩

/-- Inference as a step shows the columns, and its outcome is that of inference. -/
theorem run_inferColumns {σ : Type} (t : Table) (fields : FieldCounts) (s : Session σ) :
    ∃ s', Run.Logs s s' ∧ (inferColumns t fields).run s = (match (infer t fields).fault with
      | some fault => .error (.schema fault)
      | none => .ok (infer t fields).columns, s') := by
  unfold inferColumns
  have hlogs : Run.Along Run.Logs
      ((infer t fields).columns.forM (Column.report (σ := σ) t.name)) :=
    Run.chain_logs.forM fun _ _ => Run.logs_log _ _ _ _
  have hnever : Run.FailsOnly (fun _ => False)
      ((infer t fields).columns.forM (Column.report (σ := σ) t.name)) :=
    Run.FailsOnly.forM fun _ _ => Run.failsOnly_log _ _ _ _
  cases hrun : ((infer t fields).columns.forM (Column.report t.name)).run s with
  | mk outcome s' =>
      have hshown := hlogs s
      rw [hrun] at hshown
      cases outcome with
      | error failure => exact (hnever s failure s' hrun).elim
      | ok _ =>
          simp only
          rw [Run.run_bind_ok hrun]
          refine ⟨s', hshown, ?_⟩
          cases (infer t fields).fault <;> rfl

/-- The columns that these statistics add to a table: none if there is a fault. -/
def learnt (t : Table) (fields : FieldCounts) : List Column :=
  if (infer t fields).fault.isNone then (infer t fields).columns else []

/-- A schema is added to the table, or else there is a fault and nothing has changed. -/
theorem run_buildSchema (statistics : Statistics) (p : Session Progress) :
    ∃ p', course p' = course p ∧
      p'.own = { p.own with
        table.columns := p.own.table.columns ++ learnt p.own.table statistics.fields } ∧
      (Stager.buildSchema statistics).run p
        = (match (infer p.own.table statistics.fields).fault with
          | some fault => .error (.schema fault)
          | none => .ok (), p') := by
  obtain ⟨p₁, hlogs, hrun⟩ := run_inferColumns p.own.table statistics.fields p
  unfold Stager.buildSchema learnt
  rw [Run.run_bind_ok (Run.run_own p)]
  cases hfault : (infer p.own.table statistics.fields).fault with
  | some fault =>
      rw [hfault] at hrun
      refine ⟨p₁, course_of_logs hlogs, ?_, Run.run_bind_error hrun⟩
      rw [hlogs.own, Option.isNone_some, if_neg Bool.false_ne_true, List.append_nil]
  | none =>
      rw [hfault] at hrun
      rw [Run.run_bind_ok hrun, Run.run_modifyOwn]
      refine ⟨_, ?_, ?_, rfl⟩
      · show course p₁ = course p
        exact course_of_logs hlogs
      · rw [hlogs.own]
        rfl

/-- The table that staging leaves: inferred columns are added to it, or none. -/
def Extends (t t' : Table) : Prop :=
  ∃ fields columns, infer t fields = ⟨columns, none⟩ ∧
    t' = { t with columns := t.columns ++ columns, skip := t'.skip }

theorem extends_nothing (t : Table) (skip : Bool) : Extends t { t with skip := skip } :=
  ⟨[], [], by simp [infer, Json.sortMembers, inferFrom], by rw [List.append_nil]⟩

theorem extends_learnt (t : Table) (fields : FieldCounts) :
    Extends t { t with columns := t.columns ++ learnt t fields } := by
  unfold learnt
  cases hfault : (infer t fields).fault with
  | some fault =>
      rw [Option.isNone_some, if_neg Bool.false_ne_true, List.append_nil]
      exact extends_nothing t t.skip
  | none =>
      refine ⟨fields, _, ?_, rfl⟩
      rw [Option.isNone_none, if_pos rfl, ← hfault]

/-! ## Both passes -/

/-- Up to the schema the script is the same whatever follows. -/
theorem isPlayed_survey {t : Table} {batches : List (List String)} {failure : Failure}
    (h : notes <+: [.entered .analyze, .entered .buildSchema]) :
    IsPlayed (α := α) (stager.script t batches) completion notes (.error failure) := by
  refine ⟨h.trans (List.prefix_append _ _), fun heq => ?_⟩
  have hlength := h.length_le
  simp [heq, Stager.script] at hlength

/-- Staging plays the script of the table that it leaves. -/
theorem takePasses_course (stager : Stager) (p : Session Progress) :
    ∃ batches notes, course (stager.takePasses.run p).2 = course p ++ notes ∧
      (stager.takePasses.run p).2.own.phase = phaseAfter p.own.phase notes ∧
      Extends p.own.table (stager.takePasses.run p).2.own.table ∧
      IsPlayed (stager.script (stager.takePasses.run p).2.own.table batches) completion notes
        (stager.takePasses.run p).1 := by
  rw [takePasses_eq_survey]
  obtain ⟨notes, hsurveyed, hplayed⟩ := follows_survey stager p
  cases hsurvey : stager.survey.run p with
  | mk outcome p₁ =>
      rw [hsurvey] at hsurveyed hplayed
      cases outcome with
      | error failure =>
          rw [Run.run_bind_error hsurvey]
          refine ⟨[], notes, hsurveyed.course, hsurveyed.phase, ?_, isPlayed_survey hplayed.1⟩
          rw [hsurveyed.table]
          exact extends_nothing _ _
      | ok statistics =>
          obtain rfl : notes = [.entered .analyze, .entered .buildSchema] := hplayed
          obtain ⟨docs, hdocs, -⟩ := survey_ok hsurvey
          obtain ⟨p₂, hcourse, hown, hbuild⟩ := run_buildSchema statistics p₁
          rw [hsurveyed.course] at hcourse
          have hphase : p₂.own.phase
              = phaseAfter p.own.phase [.entered .analyze, .entered .buildSchema] := by
            rw [hown, hsurveyed.phase]
          have hextends : Extends p.own.table p₂.own.table := by
            rw [← hsurveyed.table, hown]
            exact extends_learnt _ _
          have hpages : List.Forall₂ (Holds stager.files) (stager.pages p₂.own) docs := by
            rw [← hsurveyed.pages_eq] at hdocs
            rwa [hown]
          rw [Run.run_bind_ok hsurvey]
          cases hfault : (infer p₁.own.table statistics.fields).fault with
          | some fault =>
              rw [hfault] at hbuild
              rw [Run.run_bind_error hbuild]
              exact ⟨[], _, hcourse, hphase, hextends, isPlayed_survey List.prefix_rfl⟩
          | none =>
              rw [hfault] at hbuild
              rw [Run.run_bind_ok hbuild]
              obtain ⟨batches, notes, hfilled, hplayed⟩ :=
                follows_createAndFill hpages
              refine ⟨batches, [.entered .analyze, .entered .buildSchema] ++ notes, ?_⟩
              refine ⟨?_, ?_, ?_, ?_⟩
              · rw [hfilled.course, hcourse, List.append_assoc]
              · rw [hfilled.phase, hphase, phaseAfter_append]
              · rwa [hfilled.table]
              · rw [hfilled.table]
                exact hplayed.prepend

/-! ## Staging -/

/-- How a table is passed over. -/
def passing : List Note := [.entered .skipped, .counted (.tablesStaged Phase.skipped.name) 1]

/-- How a table is given up. -/
def abandonment : List Note := [.entered .failed, .counted (.tablesStaged Phase.failed.name) 1]

theorem run_skip (p : Session Progress) : ∃ p', Stager.skip.run p = (.ok (), p') ∧
    course p' = course p ++ passing ∧
    p'.own = { p.own with phase := .skipped, table.skip := true } := by
  obtain ⟨p₁, hrun, hreaches, hown⟩ :=
    run_enter .skipped { p with own := { p.own with table.skip := true } }
  unfold Stager.skip
  rw [Run.run_bind_ok (Run.run_modifyOwn _ _), Run.run_bind_ok hrun, Run.run_count]
  refine ⟨_, rfl, ?_, hown⟩
  rw [course_note, hreaches.course, List.append_assoc]
  rfl

theorem logs_readPageCount {σ : Type} (files : Directory) (dir name : String) :
    Run.Along Run.Logs (readPageCount files dir name : Run σ Int) := by
  unfold readPageCount
  simp only
  split
  · exact Run.chain_logs.bind (Run.logs_log _ _ _ _) fun _ => Run.chain_logs.pure _
  · exact Run.chain_logs.throw _
  · split
    · exact Run.chain_logs.pure _
    · exact Run.chain_logs.throw _

/-- A table is passed over, or its script is played. -/
inductive Ends (script : List Note) : List Note → Except Failure α → Prop
  | skipped (a : α) : Ends script passing (.ok a)
  | played {notes : List Note} {outcome : Except Failure α}
      (h : IsPlayed script completion notes outcome) : Ends script notes outcome

/-- Once the pages are counted, the table is passed over or the passes are taken. -/
theorem run_proceed {count : Int} (h : (readPageCount stager.files stager.loadDir
    p.own.table.name).run p = (.ok count, p')) :
    ∃ p'', Run.Logs { p' with own := { p'.own with pageCount := count } } p'' ∧
      stager.proceed.run p
        = (if count = 0 then Stager.skip else stager.takePasses : Run Progress Unit).run p'' := by
  unfold Stager.proceed
  rw [Run.run_bind_ok (Run.run_own p), Run.run_bind_ok h, Run.run_bind_ok (Run.run_modifyOwn _ _)]
  exact ⟨_, Run.logs_log _ _ _ _ _, Run.run_bind_ok rfl⟩

theorem proceed_course (stager : Stager) (p : Session Progress) :
    ∃ batches notes, course (stager.proceed.run p).2 = course p ++ notes ∧
      (stager.proceed.run p).2.own.phase = phaseAfter p.own.phase notes ∧
      Extends p.own.table (stager.proceed.run p).2.own.table ∧
      Ends (stager.script (stager.proceed.run p).2.own.table batches) notes
        (stager.proceed.run p).1 := by
  have hcounting := logs_readPageCount stager.files stager.loadDir p.own.table.name p
  cases hcount : (readPageCount stager.files stager.loadDir p.own.table.name).run p with
  | mk outcome p₁ =>
      rw [hcount] at hcounting
      cases outcome with
      | error failure =>
          unfold Stager.proceed
          rw [Run.run_bind_ok (Run.run_own p), Run.run_bind_error hcount]
          refine ⟨[], [], ?_, ?_, ?_, .played (isPlayed_survey List.nil_prefix)⟩
          · rw [course_of_logs hcounting, List.append_nil]
          · rw [hcounting.own]
            rfl
          · rw [hcounting.own]
            exact extends_nothing _ _
      | ok count =>
          obtain ⟨p₂, hlogs, hrun⟩ := run_proceed hcount
          have hcourse : course p₂ = course p :=
            (course_of_logs hlogs).trans (course_of_logs hcounting :)
          have hown : p₂.own = { p.own with pageCount := count } := by
            rw [hlogs.own, hcounting.own]
          rw [hrun]
          split
          · obtain ⟨p₃, hskip, hpassed, hskipped⟩ := run_skip p₂
            rw [hskip]
            refine ⟨[], passing, ?_, ?_, ?_, .skipped ()⟩
            · rw [hpassed, hcourse]
            · rw [hskipped]
              rfl
            · rw [hskipped, hown]
              exact extends_nothing _ _
          · obtain ⟨batches, notes, hpasses, hphase, hextends, hplayed⟩ :=
              takePasses_course stager p₂
            rw [hcourse] at hpasses
            rw [hown] at hphase hextends
            exact ⟨batches, notes, hpasses, hphase, hextends, .played hplayed⟩

/-- What is added to the course of a table at its end: one whose data failed is given up. -/
def ending : Except Failure α → List Note
  | .ok _ => []
  | .error failure => if failure.isStaging then abandonment else []

/-- Staging ends as the passes did. -/
theorem run_stage (stager : Stager) {outcome : Except Failure Unit}
    (h : stager.proceed.run { p with table := some p.own.table.name } = (outcome, p')) :
    ∃ p'', stager.stage.run p = (outcome.map fun _ => p''.own.result, p'') ∧
      course p'' = course p' ++ ending outcome ∧
      p''.own.phase = phaseAfter p'.own.phase (ending outcome) ∧
      p''.own.table = p'.own.table ∧ p''.table = none := by
  unfold Stager.stage
  rw [Run.run_bind_ok (Run.run_own p), Run.run_bind_ok (Run.run_focus _ _),
    Run.run_bind_ok (Run.run_attempt _ _), h]
  cases outcome with
  | ok _ => exact ⟨_, rfl, (List.append_nil _).symm, rfl, rfl, rfl⟩
  | error failure =>
      unfold ending
      dsimp only
      split
      · obtain ⟨p₁, henter, hreaches, -⟩ := run_enter .failed p'
        rw [Run.run_bind_ok henter, Run.run_bind_ok (Run.run_count _ _ _)]
        refine ⟨_, rfl, ?_, hreaches.phase, hreaches.table, rfl⟩
        show course { p₁ with journal := p₁.journal.push _ } = _
        rw [course_note, hreaches.course, List.append_assoc]
        rfl
      · exact ⟨_, rfl, (List.append_nil _).symm, rfl, rfl, rfl⟩

/-- What becomes of a table that was staged: what staging reports, and the milestones on the way.
Data that cannot be staged marks the table as failed; another failure leaves it where it was. -/
inductive Staged (script : List Note) (own : Progress) :
    List Note → Except Failure Result → Prop
  | ended {notes : List Note} (h : Ends script notes (.ok own.result)) :
    Staged script own notes (.ok own.result)
  | abandoned {notes : List Note} {failure : Failure} (hstaging : failure.isStaging = true)
    (hinitial : notes <+: script) (hne : notes ≠ script) :
    Staged script own (notes ++ abandonment) (.error failure)
  | broken {notes : List Note} {failure : Failure} (hstaging : failure.isStaging = false)
    (hinitial : notes <+: script) (hne : notes ≠ script) : Staged script own notes (.error failure)

/-- All the ways in which staging a table ends. -/
theorem stage_course (stager : Stager) (p : Session Progress) :
    ∃ batches notes, course (stager.stage.run p).2 = course p ++ notes ∧
      (stager.stage.run p).2.own.phase = phaseAfter p.own.phase notes ∧
      Extends p.own.table (stager.stage.run p).2.own.table ∧
      Staged (stager.script (stager.stage.run p).2.own.table batches)
        (stager.stage.run p).2.own notes (stager.stage.run p).1 := by
  obtain ⟨batches, notes, hcourse, hphase, hextends, hends⟩ :=
    proceed_course stager { p with table := some p.own.table.name }
  cases hrun : stager.proceed.run { p with table := some p.own.table.name } with
  | mk outcome p₁ =>
      rw [hrun] at hcourse hphase hextends hends
      obtain ⟨p₂, hstage, hended, hlast, htable, -⟩ := run_stage stager hrun
      rw [hstage]
      dsimp only at hcourse hphase hextends hends ⊢
      rw [← htable] at hextends hends
      refine ⟨batches, notes ++ ending outcome, ?_, ?_, hextends, ?_⟩
      · rw [hended, hcourse, List.append_assoc]
        rfl
      · rw [hlast, hphase, phaseAfter_append]
      · cases hends with
        | skipped _ => exact .ended (.skipped _)
        | played h =>
            cases outcome with
            | ok _ => exact .ended (.played ((List.append_nil _).trans h))
            | error failure =>
                obtain ⟨hinitial, hne⟩ := h
                cases hstaging : failure.isStaging with
                | true =>
                    rw [ending, if_pos hstaging]
                    exact .abandoned hstaging hinitial hne
                | false =>
                    rw [ending, if_neg (by simp [hstaging]), List.append_nil]
                    exact .broken hstaging hinitial hne

end Staging.Stage
