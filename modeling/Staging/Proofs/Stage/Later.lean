import Staging.Proofs.Session.Later
import Staging.Stage.Table

/-!
# Staging behind other tables

Nothing that was done before a table makes a difference to its staging (`later_stage`), as no step
of it looks at notes; over a database that never fails not even the statements that were sent.
-/

namespace Staging.Stage

open Sql Page Schema

variable {σ α β : Type} {sent : Nat}

/-! ## Pages -/

theorem later_receive (text : Item String) :
    Run.Later sent (receive text : Run σ (Item Json)) := by
  cases text with
  | record text =>
      refine (Run.later_log _ _ _ _).bind fun _ => ?_
      exact (Run.later_liftExcept _).bind fun _ => Run.later_pure _
  | _ => exact Run.later_pure _

theorem later_read {files : Directory} {path : String} {visit : β → Item Json → Run σ β}
    (hvisit : ∀ b item, Run.Later sent (visit b item)) (b : β) :
    Run.Later sent (Page.read files path b visit) := by
  unfold Page.read
  split
  · exact Run.later_throw _
  · exact Run.later_throw _
  · refine (Run.later_note _).bind fun _ => ?_
    unfold Content.visit
    refine (Run.Later.foldlM ?_ _ b).bind fun _ => ?_
    · exact fun b text => (later_receive text).bind fun item => hvisit b item
    · split
      · exact Run.later_pure _
      · exact Run.later_throw _

theorem later_reportPage (pass : Pass) (path : String) :
    Run.Later sent (Stager.reportPage pass path) :=
  Run.later_own.bind fun _ => Run.later_log _ _ _ _

theorem later_timedPass {pass : Pass} {x : Run Progress α} (hx : Run.Later sent x) :
    Run.Later sent (Stager.timedPass pass x) :=
  Run.later_own.bind fun _ => (hx.timed _).bind fun _ =>
    (Run.later_note _).bind fun _ => Run.later_pure _

theorem later_enter (phase : Phase) : Run.Later sent (enter phase) :=
  Run.later_own.bind fun _ => (Run.later_log _ _ _ _).bind fun _ =>
    (Run.later_note _).bind fun _ => Run.later_modifyOwn _

/-! ## Pass one and the schema -/

theorem later_analyze (stager : Stager) : Run.Later sent stager.analyze := by
  refine Run.later_own.bind fun p => (Run.Later.foldlM ?_ _ _).bind fun _ =>
    (Run.later_note _).bind fun _ => Run.later_pure _
  intro statistics path
  refine (later_reportPage _ _).bind fun _ => later_read ?_ statistics
  intro statistics item
  cases item <;> exact Run.later_pure _

theorem later_report (statistics : Statistics) (name : String) :
    Run.Later sent (statistics.report name : Run σ Unit) :=
  Run.Later.forM fun _ _ => Run.later_log _ _ _ _

theorem later_buildSchema (statistics : Statistics) :
    Run.Later sent (Stager.buildSchema statistics) := by
  refine Run.later_own.bind fun p => Run.Later.bind ?_ fun _ => Run.later_modifyOwn _
  refine (Run.Later.forM fun _ _ => Run.later_log _ _ _ _).bind fun _ => ?_
  split
  · exact Run.later_throw _
  · exact Run.later_pure _

/-! ## Statements -/

section

variable {executor : Executor} (hsent : sent = 0 ∨ executor.failAt = none)

include hsent

theorem later_definition (sql : String) :
    Run.Later sent (Definer.execute executor sql : Run σ Unit) :=
  (Run.later_log _ _ _ _).bind fun _ => Run.later_execute hsent sql

theorem later_createTable (d : Definer) (t : Table) :
    Run.Later sent (d.createTable executor t : Run σ Unit) := by
  have hgrants : Run.Later sent ((d.grants t).forM (Definer.execute executor) : Run σ Unit) :=
    Run.Later.forM fun sql _ => later_definition hsent sql
  refine (later_definition hsent _).bind fun _ => ?_
  split
  · exact (Run.later_log _ _ _ _).bind fun _ => (later_definition hsent _).bind fun _ => hgrants
  · exact hgrants

theorem later_indexTable (d : Definer) (t : Table) :
    Run.Later sent (d.indexTable executor t : Run σ Unit) :=
  (Run.later_log _ _ _ _).bind fun _ => Run.Later.forM fun sql _ => later_definition hsent sql

end

section

variable {w : Inserter} (hsent : sent = 0 ∨ w.executor.failAt = none)

include hsent

theorem later_flush (b : Batch) : Run.Later sent (w.flush b : Run σ Batch) :=
  (Run.later_log _ _ _ _).bind fun _ => (Run.later_execute hsent _).bind fun _ =>
    (Run.later_note _).bind fun _ => (Run.later_note _).bind fun _ => Run.later_pure _

theorem later_write (b : Batch) (row : String) : Run.Later sent (w.write b row : Run σ Batch) := by
  unfold Inserter.write
  split
  · exact (later_flush hsent b).bind fun _ => Run.later_pure _
  · exact Run.later_pure _

theorem later_finish (b : Batch) : Run.Later sent (w.finish b : Run σ Batch) := by
  unfold Inserter.finish
  split
  · exact (later_flush hsent b).bind fun _ => Run.later_pure _
  · exact Run.later_pure _

end

/-! ## Pass two -/

theorem later_encodeRow (e : Encoder) (record : Json) :
    Run.Later sent (e.encodeRow record : Run σ String) := by
  unfold Encoder.encodeRow
  split
  · exact Run.later_throw _
  · refine (Run.Later.forM fun _ _ => ?_).bind fun _ =>
      (Run.later_liftExcept _).bind fun _ => Run.later_pure _
    exact (Run.later_log _ _ _ _).bind fun _ => Run.later_note _

section

variable {stager : Stager} (hsent : sent = 0 ∨ stager.executor.failAt = none)

include hsent

theorem later_loadItem (t : Table) (state : Batch × Nat) (item : Item Json) :
    Run.Later sent (stager.loadItem t state item) := by
  obtain ⟨batch, count⟩ := state
  have hinserter : sent = 0 ∨ (stager.inserter t).executor.failAt = none := hsent
  cases item with
  | arrayStart => exact Run.later_pure _
  | record r =>
      exact (later_encodeRow _ _).bind fun row =>
        (later_write hinserter batch row).bind fun _ => Run.later_pure _
  | arrayEnd => exact (later_finish hinserter batch).bind fun _ => Run.later_pure _

theorem later_load : Run.Later sent stager.load := by
  refine Run.later_own.bind fun p => (Run.Later.foldlM ?_ _ _).bind fun _ =>
    (Run.later_note _).bind fun _ => Run.later_pure _
  intro count path
  refine (later_reportPage _ _).bind fun _ => ?_
  refine (later_read (later_loadItem hsent _) _).bind fun _ => ?_
  exact (Run.later_modifyOwn _).bind fun _ => Run.later_pure _

/-! ## Staging a table -/

theorem later_takePasses : Run.Later sent stager.takePasses := by
  refine (later_enter _).bind fun _ => ?_
  refine (later_timedPass (later_analyze stager)).bind fun statistics => ?_
  refine Run.later_own.bind fun _ => (later_report _ _).bind fun _ => ?_
  refine (later_enter _).bind fun _ => (later_buildSchema statistics).bind fun _ => ?_
  refine (later_enter _).bind fun _ => Run.later_own.bind fun _ => ?_
  refine (later_createTable hsent _ _).bind fun _ => (later_enter _).bind fun _ => ?_
  refine (later_timedPass (later_load hsent)).bind fun _ => (Run.later_modifyOwn _).bind fun _ => ?_
  refine (later_enter _).bind fun _ => Run.later_own.bind fun _ => ?_
  refine (later_indexTable hsent _ _).bind fun _ => (later_enter _).bind fun _ => ?_
  exact Run.later_note _

omit hsent in
theorem later_readPageCount (files : Directory) (dir name : String) :
    Run.Later sent (readPageCount files dir name : Run σ Int) := by
  unfold readPageCount
  simp only
  split
  · exact (Run.later_log _ _ _ _).bind fun _ => Run.later_pure _
  · exact Run.later_throw _
  · split
    · exact Run.later_pure _
    · exact Run.later_throw _

theorem later_proceed : Run.Later sent stager.proceed := by
  refine Run.later_own.bind fun p => (later_readPageCount _ _ _).bind fun count => ?_
  refine (Run.later_modifyOwn _).bind fun _ => (Run.later_log _ _ _ _).bind fun _ => ?_
  split
  · exact (Run.later_modifyOwn _).bind fun _ => (later_enter _).bind fun _ => Run.later_note _
  · exact later_takePasses hsent

theorem later_stage : Run.Later sent stager.stage := by
  refine Run.later_own.bind fun p => (Run.later_focus _).bind fun _ => ?_
  refine (later_proceed hsent).attempt.bind fun outcome => ?_
  cases outcome with
  | ok _ => exact (Run.later_focus _).bind fun _ => Run.later_own.bind fun _ => Run.later_pure _
  | error failure =>
      have hrest : Run.Later sent (do Run.focus none; throw failure : Run Progress Result) :=
        (Run.later_focus _).bind fun _ => Run.later_throw _
      dsimp only
      split
      · exact (later_enter _).bind fun _ => (Run.later_note _).bind fun _ => hrest
      · exact hrest

end

end Staging.Stage
