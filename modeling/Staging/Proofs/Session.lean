import Staging.Session

/-!
# Runs step by step

How a run is taken apart into its steps, and what carries over from the steps to the run: a
relation between sessions that every step keeps, and that can be chained, is kept by the whole run
(`Along`), whether it ends in a failure or not. And a run fails in no way in which none of its steps
fails (`FailsOnly`).
-/

namespace Staging

namespace Run

variable {σ τ α β : Type}

/-! ## Outcomes -/

section

variable {ε : Type} {x : Except ε α}

theorem map_eq_ok {f : α → β} {b : β} : x.map f = .ok b ↔ ∃ a, x = .ok a ∧ f a = b := by
  cases x <;> simp [Except.map]

/-- An outcome that is taken further stays the failure that it is. -/
theorem map_eq_error {f : α → β} {e : ε} : x.map f = .error e ↔ x = .error e := by
  cases x <;> simp [Except.map]

theorem toOption_eq_some_iff {a : α} : x.toOption = some a ↔ x = .ok a := by
  cases x <;> simp [Except.toOption]

end

/-! ## Sequences -/

theorem run_bind_ok {x : Run σ α} {f : α → Run σ β} {s s' : Session σ} {a : α}
    (h : x.run s = (.ok a, s')) : (x >>= f).run s = (f a).run s' := by
  show ExceptT.bindCont f (x.run s).1 (x.run s).2 = _
  rw [h]
  rfl

theorem run_bind_error {x : Run σ α} {f : α → Run σ β} {s s' : Session σ} {e : Failure}
    (h : x.run s = (.error e, s')) : (x >>= f).run s = (.error e, s') := by
  show ExceptT.bindCont f (x.run s).1 (x.run s).2 = _
  rw [h]
  rfl

/-- A sequence that ends well is a first step that ended well, and then the rest. -/
theorem bind_ok {x : Run σ α} {f : α → Run σ β} {s s'' : Session σ} {b : β}
    (h : (x >>= f).run s = (.ok b, s'')) :
    ∃ a s', x.run s = (.ok a, s') ∧ (f a).run s' = (.ok b, s'') := by
  cases hx : x.run s with
  | mk outcome s' =>
      cases outcome with
      | error e =>
          rw [run_bind_error hx] at h
          cases h
      | ok a =>
          rw [run_bind_ok hx] at h
          exact ⟨a, s', rfl, h⟩

/-- A sequence that fails does so in the first step, or in the rest after it ended well. -/
theorem bind_error {x : Run σ α} {f : α → Run σ β} {s s'' : Session σ} {e : Failure}
    (h : (x >>= f).run s = (.error e, s'')) :
    x.run s = (.error e, s'') ∨
      ∃ a s', x.run s = (.ok a, s') ∧ (f a).run s' = (.error e, s'') := by
  cases hx : x.run s with
  | mk outcome s' =>
      cases outcome with
      | error e' =>
          rw [run_bind_error hx] at h
          obtain ⟨⟨⟩, rfl⟩ := Prod.mk.inj h
          exact .inl rfl
      | ok a =>
          rw [run_bind_ok hx] at h
          exact .inr ⟨a, s', rfl, h⟩

theorem pure_ok {a b : α} {s s' : Session σ} (h : (pure a : Run σ α).run s = (.ok b, s')) :
    a = b ∧ s = s' :=
  ⟨Except.ok.inj (Prod.mk.inj h).1, (Prod.mk.inj h).2⟩

theorem liftExcept_ok {x : Except Failure α} {a : α} {s s' : Session σ}
    (h : (liftExcept x : Run σ α).run s = (.ok a, s')) : x = .ok a ∧ s = s' := by
  cases x with
  | error e => cases h
  | ok b =>
      obtain ⟨rfl, rfl⟩ := pure_ok h
      exact ⟨rfl, rfl⟩

/-- The failure in an outcome, if it is one. -/
def failed? : Except Failure α → Option Failure
  | .ok _ => none
  | .error failure => some failure

theorem eq_of_failed? {x : Except Failure α} {failure : Failure} (h : failed? x = some failure) :
    x = .error failure := by
  cases x with
  | ok a => cases h
  | error other => rw [Option.some.inj h]

/-- A loop that ends well is a chain of steps that ended well. -/
theorem foldlM_cons_ok {f : β → α → Run σ β} {b c : β} {a : α} {l : List α} {s s'' : Session σ}
    (h : ((a :: l).foldlM f b).run s = (.ok c, s'')) :
    ∃ b' s', (f b a).run s = (.ok b', s') ∧ (l.foldlM f b').run s' = (.ok c, s'') := by
  rw [List.foldlM_cons] at h
  exact bind_ok h

/-! ## Single steps -/

theorem run_note (n : Note) (s : Session σ) :
    (note n).run s = (.ok (), { s with journal := s.journal.push n }) := rfl

theorem run_count (series : Series) (amount : Nat) (s : Session σ) :
    (count series amount).run s
      = (.ok (), { s with journal := s.journal.push (.counted series amount) }) := rfl

theorem run_time (series : Series) (seconds : Float) (s : Session σ) :
    (time series seconds).run s
      = (.ok (), { s with journal := s.journal.push (.timed series seconds) }) := rfl

theorem run_own (s : Session σ) : (own : Run σ σ).run s = (.ok s.own, s) := rfl

theorem run_modifyOwn (f : σ → σ) (s : Session σ) :
    (modifyOwn f).run s = (.ok (), { s with own := f s.own }) := rfl

theorem run_focus (table : Option String) (s : Session σ) :
    (focus table : Run σ Unit).run s = (.ok (), { s with table := table }) := rfl

theorem run_attempt (x : Run σ α) (s : Session σ) :
    (attempt x).run s = (.ok (x.run s).1, (x.run s).2) := rfl

/-! ## Statements -/

/-- The notes of a statement that was executed. -/
def execution (executor : Executor) (sql : String) : List Note :=
  .executed sql
    :: if executor.measured then [.timed (.sqlDuration (statementKind sql)) elapsed] else []

/-- The notes of a statement at which the database failed. -/
def refusal (executor : Executor) (sql : String) : List Note :=
  .refused sql
    :: if executor.measured then [.timed (.sqlDuration (statementKind sql)) elapsed] else []

theorem run_execute (executor : Executor) (sql : String) (s : Session σ) :
    (execute executor sql).run s =
      if executor.failAt = some (s.sent + 1) then
        (.error (.database (s.sent + 1)),
          { s with sent := s.sent + 1, journal := s.journal ++ refusal executor sql })
      else
        (.ok (),
          { s with sent := s.sent + 1, journal := s.journal ++ execution executor sql }) := by
  have hsent : (modify fun s => { s with sent := s.sent + 1 } : Run σ Unit).run s
      = (.ok (), { s with sent := s.sent + 1 }) := rfl
  have hget : (get : Run σ (Session σ)).run { s with sent := s.sent + 1 }
      = (.ok { s with sent := s.sent + 1 }, { s with sent := s.sent + 1 }) := rfl
  rw [execute, run_bind_ok hsent, run_bind_ok hget]
  simp only
  split
  · rw [run_bind_ok (run_note _ _)]
    unfold refusal
    split
    · rw [run_bind_ok (run_time _ _ _)]
      simp
      rfl
    · simp
      rfl
  · rw [run_bind_ok (run_note _ _)]
    unfold execution
    split
    · rw [run_time]
      simp
    · simp
      rfl

/-- A statement that was sent without a failure was executed. -/
theorem execute_ok {executor : Executor} {sql : String} {s s' : Session σ}
    (h : (execute executor sql).run s = (.ok (), s')) :
    executor.failAt ≠ some (s.sent + 1) ∧ s'.sent = s.sent + 1 ∧ s'.table = s.table ∧
      s'.own = s.own ∧ s'.journal.toList = s.journal.toList ++ execution executor sql := by
  rw [run_execute] at h
  split at h
  · cases h
  · rename_i hfail
    obtain rfl := (Prod.mk.inj h).2
    exact ⟨hfail, rfl, rfl, rfl, Array.toList_appendList⟩

/-- At a statement that failed the database did, and it was not executed. -/
theorem execute_error {executor : Executor} {sql : String} {s s' : Session σ} {e : Failure}
    (h : (execute executor sql).run s = (.error e, s')) :
    e = .database (s.sent + 1) ∧
      s'.journal.toList = s.journal.toList ++ refusal executor sql := by
  rw [run_execute] at h
  split at h
  · obtain ⟨he, rfl⟩ := Prod.mk.inj h
    exact ⟨(Except.error.inj he).symm, Array.toList_appendList⟩
  · cases h

/-! ## What a run keeps -/

/-- A relation between sessions that can be chained. -/
structure Chain (R : Session σ → Session σ → Prop) : Prop where
  refl : ∀ s, R s s
  trans : ∀ {s t u}, R s t → R t u → R s u

/-- The relation holds between the session before the run and the one after it. -/
def Along (R : Session σ → Session σ → Prop) (x : Run σ α) : Prop :=
  ∀ s, R s (x.run s).2

theorem Along.attempt {R : Session σ → Session σ → Prop} {x : Run σ α} (hx : Along R x) :
    Along R (attempt x) := fun s => hx s

section

variable {R : Session σ → Session σ → Prop} (hR : Chain R)

include hR

theorem Chain.pure (a : α) : Along R (pure a : Run σ α) := fun s => hR.refl s

theorem Chain.throw (e : Failure) : Along R (throw e : Run σ α) := fun s => hR.refl s

/-- Of the rest of a sequence only what follows on the first step's end is asked. -/
theorem Chain.bind_run {x : Run σ α} {f : α → Run σ β} {s : Session σ} (hx : R s (x.run s).2)
    (hf : ∀ a s', x.run s = (.ok a, s') → R s' ((f a).run s').2) :
    R s ((x >>= f).run s).2 := by
  cases h : x.run s with
  | mk outcome s' =>
      rw [h] at hx
      cases outcome with
      | error e => rwa [run_bind_error h]
      | ok a =>
          rw [run_bind_ok h]
          exact hR.trans hx (hf a s' h)

theorem Chain.bind {x : Run σ α} {f : α → Run σ β} (hx : Along R x) (hf : ∀ a, Along R (f a)) :
    Along R (x >>= f) :=
  fun s => hR.bind_run (hx s) fun a s' _ => hf a s'

theorem Chain.forM {f : α → Run σ PUnit} {l : List α} (hf : ∀ a ∈ l, Along R (f a)) :
    Along R (l.forM f) := by
  induction l with
  | nil => exact hR.pure ()
  | cons a l ih =>
      exact hR.bind (hf a List.mem_cons_self)
        fun _ => ih fun b hb => hf b (List.mem_cons_of_mem a hb)

theorem Chain.foldlM {f : β → α → Run σ β} {l : List α} (hf : ∀ a ∈ l, ∀ b, Along R (f b a))
    (b : β) : Along R (l.foldlM f b) := by
  induction l generalizing b with
  | nil => exact hR.pure b
  | cons a l ih =>
      rw [List.forall_mem_cons] at hf
      rw [List.foldlM_cons]
      exact hR.bind (hf.1 b) fun b' => ih hf.2 b'

theorem Chain.timed {x : Run σ α} (hx : Along R x) (span : Log.Span)
    (hnote : ∀ r, Along R (note (.logged r) : Run σ Unit)) : Along R (timed span x) := by
  have hget : Along R (get : Run σ (Session σ)) := fun s => hR.refl s
  refine hR.bind hget fun s => hR.bind (hnote _) fun _ => hR.bind hx.attempt fun outcome => ?_
  cases outcome with
  | ok a => exact hR.bind hget fun s => hR.bind (hnote _) fun _ => hR.pure a
  | error e => exact hR.bind hget fun s => hR.bind (hnote _) fun _ => hR.throw e

theorem Chain.liftExcept (x : Except Failure α) : Along R (liftExcept x : Run σ α) := by
  cases x with
  | error e => exact hR.throw e
  | ok a => exact hR.pure a

theorem Chain.own : Along R (Run.own : Run σ σ) := fun s => hR.refl s

theorem Chain.execute (executor : Executor) (sql : String)
    (hsent : ∀ s : Session σ, R s { s with sent := s.sent + 1 })
    (hexecuted : Along R (note (.executed sql) : Run σ Unit))
    (hrefused : Along R (note (.refused sql) : Run σ Unit))
    (htime : Along R (time (.sqlDuration (statementKind sql)) elapsed : Run σ Unit)) :
    Along R (execute executor sql) := by
  refine hR.bind (fun s => hsent s) fun _ => hR.bind (fun s => hR.refl s) fun s => ?_
  have htiming : Along R (if executor.measured then
      time (.sqlDuration (statementKind sql)) elapsed else Pure.pure () : Run σ Unit) := by
    split
    · exact htime
    · exact hR.pure ()
  simp only
  split
  · exact hR.bind hrefused fun _ => hR.bind htiming fun _ => hR.throw _
  · exact hR.bind hexecuted fun _ => htiming

end

/-! ## What a run fails in -/

/-- Every failure that the run can end in has the property, from whatever session it begins. -/
def FailsOnly (P : Failure → Prop) (x : Run σ α) : Prop :=
  ∀ s e s', x.run s = (.error e, s') → P e

section

variable {P : Failure → Prop}

theorem failsOnly_pure (a : α) : FailsOnly P (pure a : Run σ α) := by
  intro s e s' h
  cases h

theorem failsOnly_throw {e : Failure} (he : P e) : FailsOnly P (throw e : Run σ α) := by
  intro s e' s' h
  cases h
  exact he

theorem FailsOnly.bind {x : Run σ α} {f : α → Run σ β} (hx : FailsOnly P x)
    (hf : ∀ a, FailsOnly P (f a)) : FailsOnly P (x >>= f) := by
  intro s e s'' h
  rcases bind_error h with hfirst | ⟨a, s', -, hrest⟩
  · exact hx s e s'' hfirst
  · exact hf a s' e s'' hrest

theorem FailsOnly.forM {f : α → Run σ PUnit} {l : List α} (hf : ∀ a ∈ l, FailsOnly P (f a)) :
    FailsOnly P (l.forM f) := by
  induction l with
  | nil => exact failsOnly_pure ()
  | cons a l ih =>
      rw [List.forall_mem_cons] at hf
      exact hf.1.bind fun _ => ih hf.2

theorem FailsOnly.foldlM {f : β → α → Run σ β} {l : List α} (hf : ∀ a ∈ l, ∀ b, FailsOnly P (f b a))
    (b : β) : FailsOnly P (l.foldlM f b) := by
  induction l generalizing b with
  | nil => exact failsOnly_pure b
  | cons a l ih =>
      rw [List.forall_mem_cons] at hf
      rw [List.foldlM_cons]
      exact (hf.1 b).bind fun b' => ih hf.2 b'

theorem failsOnly_liftExcept {x : Except Failure α} (hx : ∀ e, x = .error e → P e) :
    FailsOnly P (liftExcept x : Run σ α) := by
  cases x with
  | error e => exact failsOnly_throw (hx e rfl)
  | ok a => exact failsOnly_pure a

theorem failsOnly_note (n : Note) : FailsOnly P (note n : Run σ Unit) := by
  intro s e s' h
  rw [run_note] at h
  cases h

theorem failsOnly_log (channel : String) (level : Log.Level) (message : String)
    (fields : Members) : FailsOnly P (log channel level message fields : Run σ Unit) :=
  fun s => failsOnly_note _ s

theorem failsOnly_own : FailsOnly P (own : Run σ σ) := by
  intro s e s' h
  rw [run_own] at h
  cases h

theorem failsOnly_modifyOwn (f : σ → σ) : FailsOnly P (modifyOwn f) := by
  intro s e s' h
  rw [run_modifyOwn] at h
  cases h

/-- Wherever the database may fail, it is a failure of this kind. -/
def DatabaseFailsOnly (P : Failure → Prop) (executor : Executor) : Prop :=
  ∀ n, executor.failAt = some n → P (.database n)

theorem databaseFailsOnly_of_never {executor : Executor} (hnever : executor.failAt = none) :
    DatabaseFailsOnly P executor := by
  intro n hfail
  rw [hnever] at hfail
  cases hfail

/-- A statement fails only where the database does. -/
theorem failsOnly_execute {executor : Executor} (hdatabase : DatabaseFailsOnly P executor)
    (sql : String) : FailsOnly P (execute executor sql : Run σ Unit) := by
  intro s e s' h
  rw [run_execute] at h
  split at h
  · rename_i hfail
    cases h
    exact hdatabase _ hfail
  · cases h

end

/-! ## Log records alone -/

/-- Nothing but log records came to the session. -/
structure Logs (s s' : Session σ) : Prop where
  sent : s'.sent = s.sent
  table : s'.table = s.table
  own : s'.own = s.own
  journal : ∃ records : List Log.Record,
    s'.journal.toList = s.journal.toList ++ records.map Note.logged

theorem chain_logs : Chain (Logs (σ := σ)) where
  refl _ := ⟨rfl, rfl, rfl, [], (List.append_nil _).symm⟩
  trans := by
    rintro _ _ _ ⟨hsent, htable, hown, records, hjournal⟩
      ⟨hsent', htable', hown', records', hjournal'⟩
    refine ⟨hsent'.trans hsent, htable'.trans htable, hown'.trans hown, records ++ records', ?_⟩
    rw [hjournal', hjournal, List.append_assoc, List.map_append]

theorem logs_note (r : Log.Record) : Along Logs (note (.logged r) : Run σ Unit) :=
  fun _ => ⟨rfl, rfl, rfl, [r], Array.toList_push⟩

theorem logs_log (channel : String) (level : Log.Level) (message : String) (fields : Members) :
    Along Logs (log channel level message fields : Run σ Unit) := fun s => logs_note _ s

/-- A timed operation runs between two log records, and its outcome is its own. -/
theorem timed_run {span : Log.Span} {x : Run σ α} {outcome : Except Failure α} {s s' : Session σ}
    (h : (timed span x).run s = (outcome, s')) :
    ∃ s₁ s₂, Logs s s₁ ∧ x.run s₁ = (outcome, s₂) ∧ Logs s₂ s' := by
  have hget : ∀ t, (get : Run σ (Session σ)).run t = (.ok t, t) := fun _ => rfl
  have hstart := logs_note (span.started s.table) s
  rw [timed, run_bind_ok (hget s), run_bind_ok (run_note _ _), run_bind_ok (run_attempt _ _)] at h
  rw [run_note] at hstart
  generalize { s with journal := s.journal.push (.logged (span.started s.table)) } = s₁
    at h hstart
  refine ⟨s₁, (x.run s₁).2, hstart, ?_⟩
  cases hx : x.run s₁ with
  | mk result s₂ =>
      rw [hx] at h
      cases result with
      | error e =>
          simp only at h
          rw [run_bind_ok (hget s₂), run_bind_ok (run_note _ _)] at h
          obtain ⟨rfl, rfl⟩ := Prod.mk.inj h
          exact ⟨rfl, logs_note _ s₂⟩
      | ok a =>
          simp only at h
          rw [run_bind_ok (hget s₂), run_bind_ok (run_note _ _)] at h
          obtain ⟨rfl, rfl⟩ := Prod.mk.inj h
          exact ⟨rfl, logs_note _ s₂⟩

end Run

end Staging
