import Staging.Proofs.Stage.Causes
import Staging.Proofs.Stage.Transactions

/-!
# Failures that mark a table

A table whose data cannot be staged is marked: it ends in the phase `failed` and is counted there,
once and nowhere else. A failure of another kind leaves the table in the phase that it was in, and
counted nowhere, as if it were still being staged (`stage_raised`).
-/

namespace Staging.Stage

open Schema

variable {stager : Stager} {t : Table} {p p' : Session Progress} {failure : Failure}
  {notes : List Note} {batches : List (List String)}

/-- The table was given up, and is counted as failed. -/
structure Marked (p p' : Session Progress) : Prop where
  phase : p'.own.phase = .failed
  counted : ∀ phase ∈ countedPhases,
    Journal.total p'.journal.toList (.tablesStaged phase.name)
      = Journal.total p.journal.toList (.tablesStaged phase.name)
        + if phase = .failed then 1 else 0

/-- The table is neither done, nor skipped, nor failed, and is counted as none of them. -/
structure Unmarked (p p' : Session Progress) : Prop where
  phase : p'.own.phase ∉ countedPhases
  counted : ∀ phase ∈ countedPhases,
    Journal.total p'.journal.toList (.tablesStaged phase.name)
      = Journal.total p.journal.toList (.tablesStaged phase.name)

/-- What the milestones on the way add to the counted tables is all that is added. -/
theorem total_of_course (h : course p' = course p ++ notes) (status : String) :
    Journal.total p'.journal.toList (.tablesStaged status)
      = Journal.total p.journal.toList (.tablesStaged status)
        + Journal.total notes (.tablesStaged status) := by
  rw [← total_filter p'.journal.toList, ← total_filter p.journal.toList, ← total_append]
  exact congrArg (Journal.total · _) h

/-- On the way a table is in no phase that is counted. -/
theorem phaseAfter_script {phase : Phase} (hphase : phase ∉ countedPhases)
    (h : notes <+: stager.script t batches) : phaseAfter phase notes ∉ countedPhases := by
  have hlast := List.mem_of_getLast? (getLast?_entries phase notes)
  rcases List.mem_cons.mp hlast with heq | hentered
  · rwa [heq]
  · have hscript := (entries_mono h).subset hentered
    rw [entries_script] at hscript
    revert hscript
    generalize phaseAfter phase notes = last
    revert last
    decide

theorem total_abandonment : ∀ phase ∈ countedPhases,
    Journal.total abandonment (.tablesStaged phase.name) = if phase = .failed then 1 else 0 := by
  decide

/-- A failure of the data marks the table. There are three other ways to fail, and none of them
marks it. -/
theorem stage_raised (hphase : p.own.phase ∉ countedPhases)
    (h : stager.stage.run p = (.error failure, p')) :
    failure.isStaging = true ∧ Marked p p' ∨
      Foreign stager p.own.table failure ∧ Unmarked p p' := by
  have hknown := stage_cause h
  obtain ⟨batches, notes, hcourse, hlast, -, hstaged⟩ := stage_course stager p
  rw [h] at hcourse hlast hstaged
  cases hstaged with
  | @abandoned front _ hstaging hinitial hne =>
      have hfront : ∀ n ∈ front, isStep n = true :=
        fun n hn => isStep_of_mem_script n (hinitial.subset hn)
      refine .inl ⟨hstaging, ?_, fun phase hcounted => ?_⟩
      · rw [hlast, phaseAfter_append]
        rfl
      · rw [total_of_course hcourse, total_append, total_steps hfront, Nat.zero_add]
        rw [total_abandonment phase hcounted]
  | broken hstaging hinitial hne =>
      have hfront : ∀ n ∈ notes, isStep n = true :=
        fun n hn => isStep_of_mem_script n (hinitial.subset hn)
      refine .inr ⟨hknown.resolve_left (by simp [hstaging]), ?_, fun phase _ => ?_⟩
      · rw [hlast]
        exact phaseAfter_script hphase hinitial
      · rw [total_of_course hcourse, total_steps hfront, Nat.add_zero]

theorem interrupted_raised : (interruptedStager.stage.start { table := noteTable }).1
    = .error (.database 7) :=
  Run.eq_of_failed? (by decide +kernel)

/-- A table over which the database fails raises, and is not marked. -/
theorem interrupted_unmarked :
    (interruptedStager.stage.start { table := noteTable }).1 = .error (.database 7) ∧
      (interruptedStager.stage.start { table := noteTable }).2.own.phase ≠ .failed ∧
      Journal.total (interruptedStager.stage.start { table := noteTable }).2.journal.toList
        (.tablesStaged Phase.failed.name) = 0 :=
  ⟨interrupted_raised, by decide +kernel, by decide +kernel⟩

theorem interrupted_foreign : Phase.awaitPageCount ∉ countedPhases ∧
    Foreign interruptedStager noteTable (.database 7) ∧
    Unmarked { own := { table := noteTable } }
      (interruptedStager.stage.start { table := noteTable }).2 := by
  have hstart : Phase.awaitPageCount ∉ countedPhases := by decide
  refine ⟨hstart, (stage_raised (p := { own := { table := noteTable } }) hstart
    (Prod.ext interrupted_raised rfl)).resolve_left fun h => ?_⟩
  cases h.1

end Staging.Stage
