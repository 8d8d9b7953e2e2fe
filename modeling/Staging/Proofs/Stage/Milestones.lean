import Staging.Proofs.Schema.Inference
import Staging.Proofs.Stage.Conservation

/-!
# Milestones

Of all that a journal holds, its milestones tell how far staging has come: the phases that were
entered, the statements that were executed, the bounds of transactions, and the tables that were
counted. Most steps reach none. Loading reaches none but INSERT statements, wherever it breaks off
(`stays_load`): a batch is written to only between the two ends of an array of records.
-/

namespace Staging.Stage

open Sql Page Schema

variable {σ α : Type} {stager : Stager} {p p' : Session Progress} {allowed : Note → Prop}

/-! ## Milestones -/

def isMilestone : Note → Bool
  | .began | .committed | .rolledBack | .executed _ | .entered _ => true
  | .counted series _ | .timed series _ => series.metric == .tablesStaged
  | _ => false

/-- How far a session has come. -/
def course (s : Session σ) : List Note := s.journal.toList.filter isMilestone

theorem course_note (n : Note) (s : Session σ) :
    course { s with journal := s.journal.push n } = course s ++ [n].filter isMilestone := by
  rw [course, Array.toList_push, List.filter_append]
  rfl

theorem course_of_logs {s s' : Session σ} (h : Run.Logs s s') : course s' = course s := by
  obtain ⟨-, -, -, records, hjournal⟩ := h
  have hnone : (records.map Note.logged).filter isMilestone = [] := by
    simp [isMilestone]
  rw [course, hjournal, List.filter_append, hnone, List.append_nil]
  rfl

/-! ## Steps within a phase -/

/-- The step leaves the table, its pages and its phase alone, and the milestones that it reaches are
allowed ones. -/
structure Stays (allowed : Note → Prop) (p p' : Session Progress) : Prop where
  table : p'.own.table = p.own.table
  pageCount : p'.own.pageCount = p.own.pageCount
  phase : p'.own.phase = p.own.phase
  course : ∃ notes, course p' = course p ++ notes ∧ ∀ n ∈ notes, allowed n

theorem chain_stays : Run.Chain (Stays allowed) where
  refl p := ⟨rfl, rfl, rfl, [], (List.append_nil _).symm, List.forall_mem_nil _⟩
  trans := by
    rintro p p' p'' ⟨htable, hcount, hphase, notes, hcourse, hnotes⟩
      ⟨htable', hcount', hphase', more, hcourse', hmore⟩
    refine ⟨htable'.trans htable, hcount'.trans hcount, hphase'.trans hphase, notes ++ more, ?_, ?_⟩
    · rw [hcourse', hcourse, List.append_assoc]
    · exact List.forall_mem_append.mpr ⟨hnotes, hmore⟩

theorem stays_note {n : Note} (h : isMilestone n = true → allowed n) :
    Run.Along (Stays allowed) (Run.note n) := by
  intro p
  refine ⟨rfl, rfl, rfl, [n].filter isMilestone, course_note n p, ?_⟩
  intro m hm
  obtain ⟨hmem, hmilestone⟩ := List.mem_filter.mp hm
  obtain rfl := List.mem_singleton.mp hmem
  exact h hmilestone

/-- A note that is no milestone may always be made. -/
theorem stays_idle {n : Note} (h : isMilestone n = false) :
    Run.Along (Stays allowed) (Run.note n) :=
  stays_note fun hm => absurd (h.symm.trans hm) Bool.false_ne_true

theorem stays_of_logs (h : Run.Logs p p') : Stays allowed p p' := by
  refine ⟨by rw [h.own], by rw [h.own], by rw [h.own], [], ?_, List.forall_mem_nil _⟩
  rw [course_of_logs h, List.append_nil]

theorem stays_log (channel : String) (level : Log.Level) (message : String) (fields : Members) :
    Run.Along (Stays allowed) (Run.log channel level message fields) :=
  fun p => stays_of_logs (Run.logs_log channel level message fields p)

/-- What is counted while a phase lasts may change. -/
theorem stays_tally (f : Progress → Nat) (g : Progress → Nat) :
    Run.Along (Stays allowed)
      (Run.modifyOwn fun own => { own with records := f own, statements := g own }) :=
  fun _ => ⟨rfl, rfl, rfl, [], (List.append_nil _).symm, List.forall_mem_nil _⟩

theorem stays_execute {executor : Executor} {sql : String} (h : allowed (.executed sql)) :
    Run.Along (Stays allowed) (Run.execute executor sql) := by
  have hsent : ∀ p : Session Progress, Stays allowed p { p with sent := p.sent + 1 } :=
    fun p => ⟨rfl, rfl, rfl, [], (List.append_nil _).symm, List.forall_mem_nil _⟩
  exact chain_stays.execute executor sql hsent (stays_note fun _ => h) (stays_idle rfl)
    (stays_idle rfl)

/-! ## Pass one -/

theorem stays_reportPage (pass : Pass) (path : String) :
    Run.Along (Stays allowed) (Stager.reportPage pass path) :=
  chain_stays.bind chain_stays.own fun _ => stays_log _ _ _ _

theorem stays_timedPass {pass : Pass} {x : Run Progress α}
    (hx : ∀ q : Session Progress, q.own = p.own → Stays allowed q (x.run q).2) :
    Stays allowed p ((Stager.timedPass pass x).run p).2 := by
  rw [Stager.timedPass, Run.run_bind_ok (Run.run_own p)]
  refine chain_stays.bind_run ?_ fun result q _ => ?_
  · generalize hrun : (Run.timed _ x).run p = run
    obtain ⟨q₁, q₂, hstarted, hpass, hended⟩ := Run.timed_run hrun
    have hsteps := hx q₁ hstarted.own
    rw [hpass] at hsteps
    exact chain_stays.trans (stays_of_logs hstarted)
      (chain_stays.trans hsteps (stays_of_logs hended))
  · exact chain_stays.bind (stays_idle rfl) (fun _ => chain_stays.pure _) q

theorem stays_analyze (stager : Stager) : Run.Along (Stays allowed) stager.analyze := by
  have hvisit : ∀ statistics item, Run.Along (Stays allowed) (observeItem statistics item) := by
    intro statistics item
    cases item <;> exact chain_stays.pure _
  have hpages : ∀ paths : List String, ∀ statistics,
      Run.Along (Stays allowed) (paths.foldlM stager.analyzePage statistics) := by
    intro paths
    refine chain_stays.foldlM ?_
    intro path _ statistics
    refine chain_stays.bind (stays_reportPage _ _) fun _ => ?_
    exact along_read chain_stays (stays_idle rfl) (fun _ => stays_idle rfl) hvisit statistics
  refine chain_stays.bind chain_stays.own fun _ => chain_stays.bind (hpages _ _) fun _ => ?_
  exact chain_stays.bind (stays_idle rfl) fun _ => chain_stays.pure _

theorem stays_report (statistics : Statistics) (name : String) :
    Run.Along (Stays allowed) (statistics.report name) :=
  chain_stays.forM fun _ _ => stays_log _ _ _ _

/-! ## Pass two -/

/-- The milestone of an INSERT statement. -/
def IsInsertion (w : Inserter) (n : Note) : Prop := ∃ rows, n = .executed (w.statement rows)

theorem stays_encodeRow (e : Encoder) (record : Json) :
    Run.Along (Stays allowed) (e.encodeRow record) := by
  rw [Encoder.encodeRow]
  split
  · exact chain_stays.throw _
  · refine chain_stays.bind (chain_stays.forM fun _ _ => ?_) fun _ => ?_
    · exact chain_stays.bind (stays_log _ _ _ _) fun _ => stays_idle rfl
    · exact chain_stays.bind (chain_stays.liftExcept _) fun _ => chain_stays.pure _

section

variable {w : Inserter} {b : Batch} {rows : List String}

theorem stays_flush (hb : b.Holds w.lead rows) :
    Run.Along (Stays (IsInsertion w)) (w.flush b) := by
  have hexecuted : IsInsertion w (.executed (b.text ++ Batch.terminator)) :=
    ⟨rows, by rw [hb.text]; rfl⟩
  refine chain_stays.bind (stays_log _ _ _ _) fun _ => ?_
  refine chain_stays.bind (stays_execute hexecuted) fun _ => ?_
  refine chain_stays.bind (stays_idle rfl) fun _ => ?_
  exact chain_stays.bind (stays_idle rfl) fun _ => chain_stays.pure _

theorem stays_write (hb : b.Holds w.lead rows) (row : String) :
    Run.Along (Stays (IsInsertion w)) (w.write b row) := by
  unfold Inserter.write
  split
  · exact chain_stays.bind (stays_flush hb) fun _ => chain_stays.pure _
  · exact chain_stays.pure _

theorem stays_finish (hb : b.Holds w.lead rows) :
    Run.Along (Stays (IsInsertion w)) (w.finish b) := by
  unfold Inserter.finish
  split
  · exact chain_stays.bind (stays_flush hb) fun _ => chain_stays.pure _
  · exact chain_stays.pure _

end

/-- Items that may follow where an array is open, or is not. -/
def Placed {β : Type} : Bool → List (Item β) → Prop
  | _, [] => True
  | _, .arrayStart :: items => Placed true items
  | inside, .record _ :: items => inside = true ∧ Placed inside items
  | inside, .arrayEnd :: items => inside = true ∧ Placed false items

theorem placed_arrayItems {β : Type} (records : List β) {more : List (Item β)}
    (hmore : Placed false more) : Placed false (arrayItems records ++ more) := by
  rw [arrayItems, List.cons_append, Placed, List.append_assoc]
  induction records with
  | nil => exact ⟨rfl, hmore⟩
  | cons record records ih => exact ⟨rfl, ih⟩

theorem placed_documentItems (doc : Json) : Placed false (documentItems doc) := by
  unfold documentItems
  induction recordArrays doc with
  | nil => exact trivial
  | cons records arrays ih => exact placed_arrayItems records ih

/-- The batch is a statement wherever the items to come may write to it. -/
def Ready (w : Inserter) (items : List (Item Json)) (state : Batch × Nat) : Prop :=
  ∃ inside, Placed inside items ∧ (inside = true → ∃ rows, state.1.Holds w.lead rows)

theorem ready_document (w : Inserter) (doc : Json) (count : Nat) :
    Ready w (documentItems doc) ({}, count) :=
  ⟨false, placed_documentItems doc, by rintro ⟨⟩⟩

theorem stays_loadItem {t : Table} {item : Item Json} {items : List (Item Json)}
    {state : Batch × Nat} (h : Ready (stager.inserter t) (item :: items) state) :
    Run.Along (Stays (IsInsertion (stager.inserter t))) (stager.loadItem t state item) ∧
    ∀ p state' p', (stager.loadItem t state item).run p = (.ok state', p') →
      Ready (stager.inserter t) items state' := by
  obtain ⟨batch, count⟩ := state
  obtain ⟨inside, hplaced, hbatch⟩ := h
  cases item with
  | arrayStart =>
      refine ⟨chain_stays.pure _, ?_⟩
      intro p state' p' hrun
      obtain ⟨rfl, -⟩ := Run.pure_ok hrun
      exact ⟨true, hplaced, fun _ => ⟨[], Batch.holds_start _ _⟩⟩
  | record r =>
      obtain ⟨hinside, hitems⟩ := hplaced
      obtain ⟨rows, hholds⟩ := hbatch hinside
      refine ⟨chain_stays.bind (stays_encodeRow _ _) fun row =>
        chain_stays.bind (stays_write hholds row) fun _ => chain_stays.pure _, ?_⟩
      intro p state' p' hrun
      obtain ⟨row, p₁, -, hrun⟩ := Run.bind_ok hrun
      obtain ⟨batch', p₂, hwrite, hrun⟩ := Run.bind_ok hrun
      obtain ⟨rfl, -⟩ := Run.pure_ok hrun
      obtain ⟨-, rows', -, hholds', -⟩ := write_books hholds hwrite
      exact ⟨inside, hitems, fun _ => ⟨rows', hholds'⟩⟩
  | arrayEnd =>
      obtain ⟨hinside, hitems⟩ := hplaced
      obtain ⟨rows, hholds⟩ := hbatch hinside
      refine ⟨chain_stays.bind (stays_finish hholds) fun _ => chain_stays.pure _, ?_⟩
      intro p state' p' _
      exact ⟨false, hitems, by rintro ⟨⟩⟩

/-- Loading pages that hold documents executes nothing but INSERT statements, however it ends. -/
theorem stays_load {docs : List Json}
    (hdocs : List.Forall₂ (Holds stager.files) (stager.pages p.own) docs) :
    Stays (IsInsertion (stager.inserter p.own.table)) p (stager.load.run p).2 := by
  have hpage : ∀ path ∈ stager.pages p.own, ∀ count,
      Run.Along (Stays (IsInsertion (stager.inserter p.own.table)))
        (stager.loadPage p.own.table count path) := by
    intro path hpath count
    obtain ⟨doc, -, hdoc⟩ := exists_of_mem_forall₂ hdocs hpath
    refine chain_stays.bind (stays_reportPage _ _) fun _ => chain_stays.bind ?_ fun _ => ?_
    · exact along_read_held chain_stays hdoc (stays_idle rfl) (fun _ => stays_idle rfl)
        (fun _ _ _ => stays_loadItem) (ready_document _ doc count)
    · exact chain_stays.bind (stays_tally _ _) fun _ => chain_stays.pure _
  rw [Stager.load, Run.run_bind_ok (Run.run_own p)]
  refine chain_stays.bind (chain_stays.foldlM hpage 0) (fun _ => ?_) p
  exact chain_stays.bind (stays_idle rfl) fun _ => chain_stays.pure _

end Staging.Stage
