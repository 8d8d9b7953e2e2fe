import Staging.Proofs.Session

/-!
# Runs behind other runs

What a run does is the same whatever was done before it (`Later`): a step looks at no notes. It does
depend on how many statements were sent, but only over a database that fails at one of them.
-/

namespace Staging

variable {σ τ α β : Type}

/-- The session if these notes had been made before, and so many statements sent. -/
def Session.after (s : Session σ) (before : Array Note) (sent : Nat) : Session σ :=
  { s with journal := before ++ s.journal, sent := sent + s.sent }

namespace Run

variable {sent : Nat}

/-- The run does the same when so many statements were sent before, after whatever notes. -/
def Later (sent : Nat) (x : Run σ α) : Prop :=
  ∀ before s, x.run (s.after before sent) = ((x.run s).1, (x.run s).2.after before sent)

theorem later_pure (a : α) : Later sent (pure a : Run σ α) := fun _ _ => rfl

theorem later_throw (e : Failure) : Later sent (throw e : Run σ α) := fun _ _ => rfl

theorem Later.bind {x : Run σ α} {f : α → Run σ β} (hx : Later sent x)
    (hf : ∀ a, Later sent (f a)) : Later sent (x >>= f) := by
  intro before s
  have hfirst := hx before s
  cases hrun : x.run s with
  | mk outcome s' =>
      rw [hrun] at hfirst
      cases outcome with
      | error e => rw [run_bind_error hrun, run_bind_error hfirst]
      | ok a => rw [run_bind_ok hrun, run_bind_ok hfirst, hf a before s']

theorem later_note (n : Note) : Later sent (note n : Run σ Unit) := by
  intro before s
  rw [run_note, run_note]
  simp only [Session.after, Array.append_push]

theorem later_own : Later sent (own : Run σ σ) := fun _ _ => rfl

theorem later_modifyOwn (f : σ → σ) : Later sent (modifyOwn f) := fun _ _ => rfl

theorem later_focus (table : Option String) : Later sent (focus table : Run σ Unit) :=
  fun _ _ => rfl

theorem later_log (channel : String) (level : Log.Level) (message : String) (fields : Members) :
    Later sent (log channel level message fields : Run σ Unit) :=
  fun before s => later_note (.logged (Log.staged s.table channel level message fields)) before s

theorem later_liftExcept (x : Except Failure α) : Later sent (liftExcept x : Run σ α) := by
  cases x with
  | error e => exact later_throw e
  | ok a => exact later_pure a

theorem Later.attempt {x : Run σ α} (hx : Later sent x) : Later sent (attempt x) := by
  intro before s
  rw [run_attempt, run_attempt, hx before s]

/-- What is done with the session in hand may depend on the table being staged, but on nothing else
of it. -/
theorem later_get {f : Session σ → Run σ α} (hf : ∀ s, Later sent (f s))
    (htable : ∀ s s', s'.table = s.table → f s' = f s) : Later sent (get >>= f) := by
  intro before s
  have hrun : ∀ t : Session σ, (get >>= f).run t = (f t).run t := fun _ => rfl
  rw [hrun, hrun, htable s (s.after before sent) rfl, hf s before s]

theorem Later.timed {x : Run σ α} (hx : Later sent x) (span : Log.Span) :
    Later sent (timed span x) := by
  refine later_get (fun s => ?_) fun s s' htable => by rw [htable]
  refine (later_note _).bind fun _ => hx.attempt.bind fun outcome => ?_
  cases outcome with
  | ok a =>
      refine later_get (fun s => (later_note _).bind fun _ => later_pure a) ?_
      exact fun s s' htable => by rw [htable]
  | error e =>
      refine later_get (fun s => (later_note _).bind fun _ => later_throw e) ?_
      exact fun s s' htable => by rw [htable]

theorem Later.forM {f : α → Run σ PUnit} {l : List α} (hf : ∀ a ∈ l, Later sent (f a)) :
    Later sent (l.forM f) := by
  induction l with
  | nil => exact later_pure ()
  | cons a l ih =>
      rw [List.forall_mem_cons] at hf
      exact hf.1.bind fun _ => ih hf.2

theorem Later.foldlM {f : β → α → Run σ β} (hf : ∀ b a, Later sent (f b a)) (l : List α) (b : β) :
    Later sent (l.foldlM f b) := by
  induction l generalizing b with
  | nil => exact later_pure b
  | cons a l ih =>
      rw [List.foldlM_cons]
      exact (hf b a).bind fun b' => ih b'

/-- Statements sent before make no difference, unless they bring the database nearer to one at which
it fails. -/
theorem later_execute {executor : Executor} (h : sent = 0 ∨ executor.failAt = none) (sql : String) :
    Later sent (execute executor sql : Run σ Unit) := by
  intro before s
  have hassoc : ∀ notes : List Note,
      before ++ s.journal ++ notes = before ++ (s.journal ++ notes) :=
    fun notes => Array.ext' (by simp)
  rw [run_execute, run_execute]
  rcases h with rfl | hnever
  · have hsent : (s.after before 0).sent = s.sent := Nat.zero_add _
    rw [hsent]
    split <;> simp [Session.after, hassoc]
  · rw [hnever, if_neg nofun, if_neg nofun]
    simp [Session.after, hassoc, Nat.add_assoc]

/-! ## From the beginning -/

/-- A run on a session is the run that begins with nothing noted, behind the notes of the session.
-/
theorem Later.run_eq {x : Run σ α} (hx : Later 0 x) (s : Session σ) :
    x.run s = ((x.run { s with journal := #[] }).1,
      (x.run { s with journal := #[] }).2.after s.journal 0) := by
  have hfirst := hx s.journal { s with journal := #[] }
  simpa [Session.after] using hfirst

end Run

end Staging
