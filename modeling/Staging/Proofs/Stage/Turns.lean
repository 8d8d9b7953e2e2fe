import Staging.Proofs.Stage.Course
import Staging.Proofs.Stage.Later
import Staging.Stage.Tables

/-!
# Turns

When the turn of a table comes, it is staged in a transaction of its own, just as it would be by
itself (`run_stageTable`).
-/

namespace Staging

variable {σ α : Type}

/-- How a transaction is closed. -/
def Run.closing : Except Failure α → Note
  | .ok _ => .committed
  | .error _ => .rolledBack

theorem Run.run_transaction {x : Run σ α} {s t : Session σ} {outcome : Except Failure α}
    (h : x.run { s with journal := s.journal.push .began } = (outcome, t)) :
    (transaction x).run s
      = (outcome, { t with journal := t.journal.push (closing outcome) }) := by
  rw [transaction, run_bind_ok (run_note _ _), run_bind_ok (run_attempt _ _), h]
  cases outcome <;> rfl

theorem Run.run_within {τ : Type} {x : Run τ α} {own : τ} {s : Session σ} {t : Session τ}
    {outcome : Except Failure α} (h : x.run ⟨s.journal, s.sent, s.table, own⟩ = (outcome, t)) :
    (within own x).run s = (.ok (outcome, t.own),
      { s with journal := t.journal, sent := t.sent, table := t.table }) := by
  have hrun : (within own x).run s =
      (.ok ((x.run ⟨s.journal, s.sent, s.table, own⟩).1,
        (x.run ⟨s.journal, s.sent, s.table, own⟩).2.own),
        { s with
          journal := (x.run ⟨s.journal, s.sent, s.table, own⟩).2.journal
          sent := (x.run ⟨s.journal, s.sent, s.table, own⟩).2.sent
          table := (x.run ⟨s.journal, s.sent, s.table, own⟩).2.table }) := rfl
  rw [hrun, h]

namespace Stage

open Schema

/-- A table whose turn has come, and how many statements were sent before. -/
structure Turn where
  table : Table
  sent : Nat := 0

namespace Plan

/-- Creates a stager, and stages a table with it. -/
def work (p : Plan) : Run Progress Result := do (← liftExcept p.stager).stage

/-- What comes of a table by itself. -/
def take (p : Plan) (turn : Turn) : Except Failure Result × Session Progress :=
  p.work.run { sent := turn.sent, own := { table := turn.table } }

/-- What is returned for a table: a report also on one that failed, if the run is to go on. -/
def answer (p : Plan) (turn : Turn) : Except Failure Result :=
  match (p.take turn).1 with
  | .ok result => .ok result
  | .error failure =>
    if failure.isStaging && p.settings.continueOnTableFailure then
      .ok ((p.take turn).2.own.failedResult failure)
    else .error failure

/-- The record of a table whose turn has come. -/
def announcement (t : Table) : Note :=
  .logged (Log.staged none channel Log.Level.info ("Staging table: " ++ t.name) [])

/-- The record of a table whose data could not be staged. -/
def complaint (t : Table) : Except Failure Result → List Note
  | .ok _ => []
  | .error failure =>
    if failure.isStaging then
      [.logged (Log.staged none channel Log.Level.error
        ("Staging failed: " ++ t.name ++ ": " ++ failure.message)
        [("table", .str t.name), ("error", .str failure.message)])]
    else []

/-- All that is noted while it is a table's turn. -/
def notes (p : Plan) (turn : Turn) : List Note :=
  [announcement turn.table, .began] ++ ((p.take turn).2.journal.toList
    ++ ([Run.closing (p.take turn).1] ++ complaint turn.table (p.take turn).1))

theorem later_work (p : Plan) {sent : Nat} (hsent : sent = 0 ∨ p.executor.failAt = none) :
    Run.Later sent p.work := by
  unfold work stager
  cases Sql.Dialect.ofName p.dialectName with
  | error failure => exact Run.later_throw failure
  | ok dialect =>
      show Run.Later sent (pure (p.stagerIn dialect) >>= fun stager => stager.stage)
      rw [pure_bind]
      exact later_stage hsent

/-- Once a table is done with, no table is being staged. -/
theorem work_table (p : Plan) {s : Session Progress} (hs : s.table = none) :
    (p.work.run s).2.table = none := by
  unfold work
  cases hstager : p.stager with
  | error failure => exact hs
  | ok stager =>
      obtain ⟨s', hstage, -, -, -, htable⟩ := run_stage stager (p := s) rfl
      exact (congrArg (·.2.table) hstage).trans htable

/-- The session when it has been the turn of a table, which is kept in its place. -/
def next (p : Plan) (place : Nat) (t : Table) (s : Session (List Table)) :
    Session (List Table) where
  journal := s.journal ++ (p.notes ⟨t, s.sent⟩).toArray
  sent := (p.take ⟨t, s.sent⟩).2.sent
  own := s.own.set place (p.take ⟨t, s.sent⟩).2.own.table

section

variable (p : Plan) (place : Nat) (t : Table) (s : Session (List Table))

@[simp] theorem next_journal :
    (p.next place t s).journal = s.journal ++ (p.notes ⟨t, s.sent⟩).toArray := by
  rw [next]

@[simp] theorem next_sent : (p.next place t s).sent = (p.take ⟨t, s.sent⟩).2.sent := by
  rw [next]

@[simp] theorem next_own :
    (p.next place t s).own = s.own.set place (p.take ⟨t, s.sent⟩).2.own.table := by
  rw [next]

end

/-- What happens when it is a table's turn is what comes of the table by itself. -/
theorem run_stageTable (p : Plan) (place : Nat) (t : Table) {s : Session (List Table)}
    (hs : s.table = none) :
    (p.stageTable place t).run s = (p.answer ⟨t, s.sent⟩, p.next place t s) := by
  obtain ⟨journal, sent, table, own⟩ := s
  obtain rfl : table = none := hs
  have htable : (p.take ⟨t, sent⟩).2.table = none := p.work_table rfl
  unfold next answer notes
  cases htake : p.take ⟨t, sent⟩ with
  | mk outcome q =>
  replace htable : q.table = none := by rwa [htake] at htable
  have hlog : (Run.log channel Log.Level.info ("Staging table: " ++ t.name) []).run
      (⟨journal, sent, none, own⟩ : Session (List Table))
        = (.ok (), ⟨journal.push (announcement t), sent, none, own⟩) := rfl
  have hwork : p.work.run ⟨(journal.push (announcement t)).push .began, sent, none, { table := t }⟩
      = (outcome, q.after ((journal.push (announcement t)).push .began) 0) := by
    rw [(later_work p (.inl rfl)).run_eq]
    exact congrArg (fun r => (r.1, r.2.after ((journal.push (announcement t)).push .began) 0)) htake
  have hwithin := Run.run_within (s := (⟨journal.push (announcement t), sent, none, own⟩ :
    Session (List Table))) (x := p.stageWithin) (Run.run_transaction hwork)
  have hclosed : ∀ close, ((journal.push (announcement t)).push .began ++ q.journal).push close
      = journal
        ++ ([announcement t, .began] ++ (q.journal.toList ++ ([close] ++ []))).toArray :=
    fun _ => Array.ext' (by simp)
  have hshown : ∀ close n,
      (((journal.push (announcement t)).push .began ++ q.journal).push close).push n
        = journal
          ++ ([announcement t, .began] ++ (q.journal.toList ++ ([close] ++ [n]))).toArray :=
    fun _ _ => Array.ext' (by simp)
  unfold stageTable
  rw [Run.run_bind_ok hlog, Run.run_bind_ok hwithin, Run.run_bind_ok (Run.run_modifyOwn _ _)]
  clear hlog hwork hwithin
  cases outcome with
  | ok result =>
      simp only [Session.after, Nat.zero_add, htable, Run.closing, complaint, hclosed]
      rfl
  | error failure =>
      cases hstaging : failure.isStaging with
      | false =>
          simp only [Session.after, Nat.zero_add, htable, Run.closing, complaint, hstaging, hclosed]
          rfl
      | true =>
          simp only [Session.after, Nat.zero_add, htable, Run.closing, complaint, hstaging, if_true]
          rw [← hshown]
          cases p.settings.continueOnTableFailure <;> rfl

/-! ## Turn by turn -/

section

variable {p : Plan} {place : Nat} {rest : List Nat} {t : Table} {s : Session (List Table)}

theorem run_stagePlaces_passed (h : ∀ t, s.own[place]? = some t → t.skip = true) :
    (p.stagePlaces (place :: rest)).run s = (p.stagePlaces rest).run s := by
  rw [stagePlaces, Run.run_bind_ok (Run.run_own s)]
  cases hplace : s.own[place]? with
  | none => rfl
  | some t =>
      dsimp only
      rw [h t hplace, if_pos rfl]

theorem run_stagePlaces_ok {result : Result} (hs : s.table = none) (h : s.own[place]? = some t)
    (hskip : t.skip = false) (hanswer : p.answer ⟨t, s.sent⟩ = .ok result) :
    (p.stagePlaces (place :: rest)).run s =
      (((p.stagePlaces rest).run (p.next place t s)).1.map (result :: ·),
        ((p.stagePlaces rest).run (p.next place t s)).2) := by
  have hrun := p.run_stageTable place t hs
  rw [hanswer] at hrun
  rw [stagePlaces, Run.run_bind_ok (Run.run_own s), h]
  dsimp only
  rw [hskip, if_neg Bool.false_ne_true, Run.run_bind_ok hrun]
  cases hrest : (p.stagePlaces rest).run (p.next place t s) with
  | mk outcome last =>
      cases outcome with
      | ok results => rw [Run.run_bind_ok hrest]; rfl
      | error failure => rw [Run.run_bind_error hrest]; rfl

theorem run_stagePlaces_error {failure : Failure} (hs : s.table = none)
    (h : s.own[place]? = some t) (hskip : t.skip = false)
    (hanswer : p.answer ⟨t, s.sent⟩ = .error failure) :
    (p.stagePlaces (place :: rest)).run s = (.error failure, p.next place t s) := by
  have hrun := p.run_stageTable place t hs
  rw [hanswer] at hrun
  rw [stagePlaces, Run.run_bind_ok (Run.run_own s), h]
  dsimp only
  rw [hskip, if_neg Bool.false_ne_true, Run.run_bind_error hrun]

end

/-- The failure of a table ends the run. -/
def Halts (p : Plan) (turn : Turn) (failure : Failure) : Prop :=
  (p.take turn).1 = .error failure ∧
    (failure.isStaging = false ∨ p.settings.continueOnTableFailure = false)

theorem answer_eq_error_iff {p : Plan} {turn : Turn} {failure : Failure} :
    p.answer turn = .error failure ↔ p.Halts turn failure := by
  unfold answer Halts
  cases (p.take turn).1 with
  | ok result => simp
  | error other =>
      simp only [Except.error.injEq]
      split
      · rename_i hgoes
        rw [Bool.and_eq_true] at hgoes
        refine iff_of_false nofun ?_
        rintro ⟨rfl, hstop⟩
        simp [hgoes] at hstop
      · rename_i hstop
        rw [Except.error.injEq]
        refine ⟨?_, And.left⟩
        rintro rfl
        exact ⟨rfl, by simpa [imp_iff_not_or] using hstop⟩

/-- The tables at these places take their turns: those that are to be skipped when they come up are
passed over, and the failure of a table may end the run. The first statement is the one after `sent`
others. -/
inductive Turns (p : Plan) :
    Nat → List Table → List Nat → List Turn → List Table → Option Failure → Prop
  | finished (sent : Nat) (tables : List Table) : Turns p sent tables [] [] tables none
  | passed {sent : Nat} {tables held : List Table} {place : Nat} {rest : List Nat}
    {turns : List Turn} {stop : Option Failure} (h : ∀ t, tables[place]? = some t → t.skip = true)
    (more : Turns p sent tables rest turns held stop) :
    Turns p sent tables (place :: rest) turns held stop
  | taken {sent : Nat} {tables held : List Table} {place : Nat} {rest : List Nat} {t : Table}
    {turns : List Turn} {stop : Option Failure} (h : tables[place]? = some t)
    (hskip : t.skip = false) (hgoes : ∀ failure, ¬p.Halts ⟨t, sent⟩ failure)
    (more : Turns p (p.take ⟨t, sent⟩).2.sent (tables.set place (p.take ⟨t, sent⟩).2.own.table)
      rest turns held stop) :
    Turns p sent tables (place :: rest) (⟨t, sent⟩ :: turns) held stop
  | halted {sent : Nat} {tables : List Table} {place : Nat} {rest : List Nat} {t : Table}
    {failure : Failure} (h : tables[place]? = some t) (hskip : t.skip = false)
    (hhalts : p.Halts ⟨t, sent⟩ failure) :
    Turns p sent tables (place :: rest) [⟨t, sent⟩]
      (tables.set place (p.take ⟨t, sent⟩).2.own.table) (some failure)

/-- What is returned for these turns, or the failure of the last of them. -/
def Answered (p : Plan) (turns : List Turn) : Except Failure (List Result) → Option Failure → Prop
  | .ok results, stop => stop = none ∧
    List.Forall₂ (fun turn result => p.answer turn = .ok result) turns results
  | .error failure, stop => stop = some failure ∧
    ∃ earlier last, turns = earlier ++ [last] ∧ p.Halts last failure

/-- A run over the tables at some places is what comes of their turns, one after the other. -/
theorem run_stagePlaces (p : Plan) (places : List Nat) {s : Session (List Table)}
    (hs : s.table = none) : ∃ turns stop,
    Turns p s.sent s.own places turns ((p.stagePlaces places).run s).2.own stop ∧
    p.Answered turns ((p.stagePlaces places).run s).1 stop ∧
    ((p.stagePlaces places).run s).2.journal.toList
      = s.journal.toList ++ turns.flatMap p.notes := by
  induction places generalizing s with
  | nil => exact ⟨[], none, .finished _ _, ⟨rfl, .nil⟩, (List.append_nil _).symm⟩
  | cons place rest ih =>
      by_cases hpassed : ∀ t, s.own[place]? = some t → t.skip = true
      · rw [run_stagePlaces_passed hpassed]
        obtain ⟨turns, stop, hturns, hrest⟩ := ih hs
        exact ⟨turns, stop, .passed hpassed hturns, hrest⟩
      simp only [not_forall, Bool.not_eq_true] at hpassed
      obtain ⟨t, hplace, hskip⟩ := hpassed
      cases hanswer : p.answer ⟨t, s.sent⟩ with
      | error failure =>
          rw [run_stagePlaces_error hs hplace hskip hanswer]
          have hhalts := answer_eq_error_iff.mp hanswer
          refine ⟨[⟨t, s.sent⟩], some failure, ?_, ⟨rfl, [], _, rfl, hhalts⟩, by simp⟩
          rw [next_own]
          exact .halted hplace hskip hhalts
      | ok result =>
          have hgoes : ∀ failure, ¬p.Halts ⟨t, s.sent⟩ failure := by
            intro failure hhalts
            cases hanswer.symm.trans (answer_eq_error_iff.mpr hhalts)
          obtain ⟨turns, stop, hturns, hanswered, hjournal⟩ := ih (s := p.next place t s) rfl
          rw [next_sent, next_own] at hturns
          rw [run_stagePlaces_ok hs hplace hskip hanswer]
          refine ⟨⟨t, s.sent⟩ :: turns, stop, .taken hplace hskip hgoes hturns, ?_, ?_⟩
          · cases hrest : ((p.stagePlaces rest).run (p.next place t s)).1 with
            | ok results =>
                rw [hrest] at hanswered
                exact ⟨hanswered.1, .cons hanswer hanswered.2⟩
            | error failure =>
                rw [hrest] at hanswered
                obtain ⟨hstop, earlier, final, rfl, hhalts⟩ := hanswered
                exact ⟨hstop, _ :: earlier, final, rfl, hhalts⟩
          · simp [hjournal]

end Plan

end Stage

end Staging
