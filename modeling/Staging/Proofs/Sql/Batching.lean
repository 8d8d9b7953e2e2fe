import Staging.Proofs.Sql.Split

/-!
# What a batch sends

A batch is driven by requests, and what it sends is known beforehand: just the statements of the
split go to the database, in order, and all of them unless it fails at one (`performAll_sends`).
After every request the batch says of itself what it holds and what it has done (`arrays_split`).
Every statement has a tuple, unless the threshold is below the lead of a statement
(`every_statement_inserts_iff`).
-/

namespace Staging.Sql

namespace Inserter

variable {σ α β : Type} {w : Inserter} {current rows : List String}

/-! ## What is sent -/

/-- Whether a note is about a statement that went to the database. -/
def isTraffic : Note → Bool
  | .executed _ | .refused _ => true
  | _ => false

/-- The statements that went to the database. -/
def traffic (s : Session σ) : List Note := s.journal.toList.filter isTraffic

/-- Just these statements went to the database: all of them if the run ended well, else those up to
the one at which the database failed. -/
def Sent (w : Inserter) (batches : List (List String)) (s : Session σ) :
    Except Failure α × Session σ → Prop
  | (.ok _, s') => traffic s' = traffic s ++ (batches.map w.statement).map .executed
  | (.error e, s') => ∃ done rows n, done ++ [rows] <+: batches ∧ w.executor.failAt = some n ∧
      e = .database n ∧
      traffic s'
        = traffic s ++ (done.map w.statement).map .executed ++ [.refused (w.statement rows)]

theorem traffic_note (n : Note) (s : Session σ) :
    traffic { s with journal := s.journal.push n } = traffic s ++ [n].filter isTraffic := by
  rw [traffic, Array.toList_push, List.filter_append]
  rfl

theorem traffic_of_logs {s s' : Session σ} (h : Run.Logs s s') : traffic s' = traffic s := by
  obtain ⟨-, -, -, records, hjournal⟩ := h
  have hnone : (records.map Note.logged).filter isTraffic = [] := by
    simp [isTraffic]
  rw [traffic, hjournal, List.filter_append, hnone, List.append_nil]
  rfl

theorem sent_ok {a : α} {s s' : Session σ} (h : traffic s' = traffic s) :
    w.Sent [] s (.ok a, s') := by
  rw [Sent, h]
  simp

/-- What a first step sends, and the rest after it, the whole sends. -/
theorem Sent.bind {batches more : List (List String)} {x : Run σ α} {f : α → Run σ β}
    {s : Session σ} (hx : w.Sent batches s (x.run s))
    (hf : ∀ a s', x.run s = (.ok a, s') → w.Sent more s' ((f a).run s')) :
    w.Sent (batches ++ more) s ((x >>= f).run s) := by
  cases hrun : x.run s with
  | mk outcome s' =>
      rw [hrun] at hx
      cases outcome with
      | error e =>
          obtain ⟨done, rows, n, hdone, hsent⟩ := hx
          rw [Run.run_bind_error hrun]
          exact ⟨done, rows, n, hdone.trans (List.prefix_append _ _), hsent⟩
      | ok a =>
          have hrest := hf a s' hrun
          rw [Sent] at hx
          rw [Run.run_bind_ok hrun]
          cases hmore : (f a).run s' with
          | mk outcome' s'' =>
              rw [hmore] at hrest
              cases outcome' with
              | ok b =>
                  rw [Sent] at hrest
                  rw [Sent, hrest, hx]
                  simp
              | error e =>
                  obtain ⟨done, rows, n, hdone, hfail, he, htraffic⟩ := hrest
                  refine ⟨batches ++ done, rows, n, ?_, hfail, he, ?_⟩
                  · rw [List.append_assoc]
                    exact (List.prefix_append_right_inj batches).mpr hdone
                  · rw [htraffic, hx]
                    simp

/-- Steps after which the database hears no more change nothing of what was sent. -/
theorem Sent.before {batches : List (List String)} {x : Run σ α} {f : α → Run σ β} {s : Session σ}
    (hx : w.Sent batches s (x.run s))
    (hf : ∀ a s', x.run s = (.ok a, s') → w.Sent [] s' ((f a).run s')) :
    w.Sent batches s ((x >>= f).run s) := by
  have hall := hx.bind hf
  rwa [List.append_nil] at hall

variable {b b' : Batch} {s s' : Session σ}

theorem execute_sent (rows : List String) (s : Session σ) :
    w.Sent [rows] s ((Run.execute w.executor (w.statement rows)).run s) := by
  cases hrun : (Run.execute w.executor (w.statement rows)).run s with
  | mk outcome s' =>
      cases outcome with
      | ok _ =>
          have hjournal := (Run.execute_ok hrun).2.2.2.2
          have hexecution : (Run.execution w.executor (w.statement rows)).filter isTraffic
              = [.executed (w.statement rows)] := by
            unfold Run.execution
            split <;> rfl
          rw [Sent, traffic, hjournal, List.filter_append, hexecution]
          rfl
      | error e =>
          have hjournal := (Run.execute_error hrun).2
          have hrefusal : (Run.refusal w.executor (w.statement rows)).filter isTraffic
              = [.refused (w.statement rows)] := by
            unfold Run.refusal
            split <;> rfl
          have hfails : Run.FailsOnly
              (fun e => ∃ n, w.executor.failAt = some n ∧ e = .database n)
              (Run.execute w.executor (w.statement rows) : Run σ Unit) :=
            Run.failsOnly_execute (fun n hn => ⟨n, hn, rfl⟩) _
          obtain ⟨n, hfail, rfl⟩ := hfails s e s' hrun
          refine ⟨[], rows, n, List.prefix_rfl, hfail, rfl, ?_⟩
          rw [traffic, hjournal, List.filter_append, hrefusal]
          simp [traffic]

theorem flush_sent (hb : b.Holds w.lead current) (s : Session σ) :
    w.Sent [current] s ((w.flush b).run s) := by
  have htext : b.text ++ Batch.terminator = w.statement current := by
    rw [hb.text]
    rfl
  rw [Inserter.flush, htext]
  have hlog : w.Sent [] s ((Run.log channel Log.Level.detail ("Loading data for table: " ++ w.table)
      [("rows", .int b.pending), ("size", .int b.size)]).run s) :=
    sent_ok (traffic_of_logs (Run.logs_log _ _ _ _ s))
  refine hlog.bind fun _ s₁ _ => ?_
  refine (execute_sent current s₁).before fun _ s₂ _ => ?_
  rw [Run.run_bind_ok (Run.run_count _ _ _), Run.run_bind_ok (Run.run_count _ _ _)]
  refine sent_ok ?_
  rw [traffic_note, traffic_note]
  simp [isTraffic]

end Inserter

/-! ## What a batch says of itself -/

/-- Within an array the batch is a statement of the gathered rows, and between two arrays it is
nothing. -/
def Batch.Stands (b : Batch) (lead : String) (current : List String) : Bool → Prop
  | true => b.Holds lead current
  | false => b.text = "" ∧ b.size = 0 ∧ b.pending = 0 ∧ current = []

/-- The batch stands so after these statements, and has counted them. -/
structure Batch.Tracks (b : Batch) (lead : String) (inside : Bool) (done : List (List String))
    (current : List String) : Prop where
  stands : b.Stands lead current inside
  statements : b.statements = done.length
  rows : b.rows = done.flatten.length

namespace Inserter

variable {σ : Type} {w : Inserter} {b b' : Batch} {current : List String}
  {done : List (List String)} {request : Request} {s s' : Session σ}

theorem flush_ok (h : (w.flush b).run s = (.ok b', s')) : b' = b.executed := by
  obtain ⟨⟨⟩, s₁, -, h⟩ := Run.bind_ok h
  obtain ⟨⟨⟩, s₂, -, h⟩ := Run.bind_ok h
  rw [Run.run_bind_ok (Run.run_count _ _ _), Run.run_bind_ok (Run.run_count _ _ _)] at h
  exact (Run.pure_ok h).1.symm

theorem tracks_executed (h : b.Holds w.lead current) (hstatements : b.statements = done.length)
    (hrows : b.rows = done.flatten.length) :
    b.executed.statements = (done ++ [current]).length ∧
      b.executed.rows = (done ++ [current]).flatten.length := by
  simp [Batch.executed, hstatements, hrows, h.pending]

theorem write_sent (hb : b.Holds w.lead current) (row : String) (s : Session σ) :
    w.Sent (w.turn current (.write row)).1 s ((w.write b row).run s) := by
  have hsize : b.size = (w.gathered current).length := by
    rw [hb.size, hb.text, gathered]
  rw [Inserter.write, turn, hsize]
  split
  · exact (flush_sent hb s).before fun _ _ _ => sent_ok rfl
  · exact sent_ok rfl

theorem write_tracks (h : b.Tracks w.lead true done current) {row : String}
    (hrun : (w.write b row).run s = (.ok b', s')) :
    b'.Tracks w.lead true (done ++ (w.turn current (.write row)).1)
      (w.turn current (.write row)).2 := by
  obtain ⟨hb, hstatements, hrows⟩ := h
  have hb : b.Holds w.lead current := hb
  have hsize : b.size = (w.gathered current).length := by
    rw [hb.size, hb.text, gathered]
  rw [Inserter.write, hsize] at hrun
  rw [turn]
  split at hrun
  · rename_i hpast
    obtain ⟨flushed, s₁, hflush, hrun⟩ := Run.bind_ok hrun
    obtain ⟨rfl, -⟩ := Run.pure_ok hrun
    obtain rfl := flush_ok hflush
    rw [if_pos hpast]
    obtain ⟨hstatements', hrows'⟩ := tracks_executed hb hstatements hrows
    exact ⟨(Batch.holds_start b.executed w.lead).append row, hstatements', hrows'⟩
  · rename_i hwithin
    obtain ⟨rfl, -⟩ := Run.pure_ok hrun
    rw [if_neg hwithin, List.append_nil]
    exact ⟨hb.append row, hstatements, hrows⟩

theorem pending_pos_iff (hb : b.Holds w.lead current) : 0 < b.pending ↔ current ≠ [] := by
  rw [hb.pending, List.length_pos_iff]

theorem finish_sent (hb : b.Holds w.lead current) (s : Session σ) :
    w.Sent (w.turn current .finish).1 s ((w.finish b).run s) := by
  rw [Inserter.finish, turn]
  simp only [pending_pos_iff hb]
  split
  · rename_i hnil
    rw [if_neg (not_not.mpr hnil)]
    exact sent_ok rfl
  · exact (flush_sent hb s).before fun _ _ _ => sent_ok rfl

theorem finish_tracks (h : b.Tracks w.lead true done current)
    (hrun : (w.finish b).run s = (.ok b', s')) :
    b'.Tracks w.lead false (done ++ (w.turn current .finish).1) (w.turn current .finish).2 := by
  obtain ⟨hb, hstatements, hrows⟩ := h
  have hb : b.Holds w.lead current := hb
  rw [Inserter.finish] at hrun
  rw [turn]
  split at hrun
  · rename_i hpending
    obtain ⟨flushed, s₁, hflush, hrun⟩ := Run.bind_ok hrun
    obtain ⟨rfl, -⟩ := Run.pure_ok hrun
    obtain rfl := flush_ok hflush
    rw [if_neg ((pending_pos_iff hb).mp hpending)]
    obtain ⟨hstatements', hrows'⟩ := tracks_executed hb hstatements hrows
    exact ⟨⟨rfl, rfl, rfl, rfl⟩, hstatements', hrows'⟩
  · rename_i hpending
    obtain ⟨rfl, -⟩ := Run.pure_ok hrun
    have hnil : current = [] := by
      rwa [pending_pos_iff hb, not_not] at hpending
    rw [if_pos hnil, List.append_nil]
    exact ⟨⟨rfl, rfl, Nat.eq_zero_of_not_pos hpending, rfl⟩, hstatements, hrows⟩

/-- What one request sends, and how it leaves the batch. -/
theorem perform_sends (h : b.Tracks w.lead request.isWithin done current) (s : Session σ) :
    w.Sent (w.turn current request).1 s ((w.perform b request).run s) ∧
    ∀ b' s', (w.perform b request).run s = (.ok b', s') →
      b'.Tracks w.lead request.opens (done ++ (w.turn current request).1)
        (w.turn current request).2 := by
  cases request with
  | begin =>
      refine ⟨sent_ok rfl, ?_⟩
      intro b' s' hrun
      obtain ⟨rfl, -⟩ := Run.pure_ok hrun
      rw [turn, List.append_nil]
      exact ⟨Batch.holds_start b w.lead, h.statements, h.rows⟩
  | write row => exact ⟨write_sent h.stands row s, fun b' s' => write_tracks h⟩
  | finish => exact ⟨finish_sent h.stands s, fun b' s' => finish_tracks h⟩

/-- What requests send, and how they leave the batch. -/
theorem performAll_sends {inside : Bool} {requests : List Request}
    (hturn : Request.InTurn inside requests) (h : b.Tracks w.lead inside done current)
    (s : Session σ) :
    w.Sent (w.turns current requests).1 s ((w.performAll b requests).run s) ∧
    ∀ b' s', (w.performAll b requests).run s = (.ok b', s') →
      ∃ inside', b'.Tracks w.lead inside' (done ++ (w.turns current requests).1)
        (w.turns current requests).2 := by
  induction requests generalizing inside b done current s with
  | nil =>
      refine ⟨sent_ok rfl, ?_⟩
      intro b' s' hrun
      obtain ⟨rfl, -⟩ := Run.pure_ok hrun
      exact ⟨inside, by rwa [turns, List.append_nil]⟩
  | cons request requests ih =>
      obtain ⟨rfl, hmore⟩ := hturn
      obtain ⟨hsent, htracks⟩ := perform_sends h s
      rw [performAll, List.foldlM_cons]
      refine ⟨hsent.bind fun b₁ s₁ hrun => (ih hmore (htracks b₁ s₁ hrun) s₁).1, ?_⟩
      intro b' s' hrun
      obtain ⟨b₁, s₁, hfirst, hrest⟩ := Run.bind_ok hrun
      obtain ⟨inside', hall⟩ := (ih hmore (htracks b₁ s₁ hfirst) s₁).2 b' s' hrest
      rw [List.append_assoc] at hall
      exact ⟨inside', hall⟩

/-! ## Arrays of rows -/

theorem tracks_fresh (lead : String) : ({} : Batch).Tracks lead false [] [] :=
  ⟨⟨rfl, rfl, rfl, rfl⟩, rfl, rfl⟩

theorem arrays_sends (w : Inserter) (arrays : List (List String)) (own : σ) :
    w.Sent (arrays.flatMap w.split) { own := own }
      ((w.performAll {} (Request.ofArrays arrays)).start own) := by
  have hturn := Request.inTurn_ofArrays arrays
  have hsends := performAll_sends hturn (tracks_fresh w.lead) { own := own }
  rw [turns_ofArrays] at hsends
  exact hsends.1

/-! ### Statements without tuples -/

/-- A statement with at least one tuple, and none that is empty. -/
def Inserts (w : Inserter) (sql : String) : Prop :=
  ∃ rows, rows ≠ [] ∧ "" ∉ rows ∧ sql = w.statement rows

theorem statement_eq (w : Inserter) (rows : List String) :
    w.statement rows = w.gathered rows ++ Batch.terminator := rfl

theorem not_inserts_nil (w : Inserter) : ¬w.Inserts (w.statement []) := by
  rintro ⟨rows, hrows, hfilled, heq⟩
  cases rows with
  | nil => exact hrows rfl
  | cons row more =>
      rw [statement_eq, statement_eq, String.append_left_inj, gathered_nil] at heq
      have hfirst := length_gathered_le w [row] more
      rw [List.singleton_append, ← heq, gathered, String.intercalate_singleton,
        String.length_append] at hfirst
      have hempty : row = "" := String.length_eq_zero_iff.mp (by omega)
      exact hfilled (hempty ▸ List.mem_cons_self)

theorem flatMap_split_eq_cons (hlead : w.threshold < w.lead.length) {arrays : List (List String)}
    (harrays : ∃ rows ∈ arrays, rows ≠ []) : ∃ more, arrays.flatMap w.split = [] :: more := by
  induction arrays with
  | nil => simp at harrays
  | cons rows arrays ih =>
      rw [List.flatMap_cons]
      by_cases hrows : rows = []
      · subst hrows
        exact ih (by simpa using harrays)
      · obtain ⟨more, hsplit⟩ := split_eq_cons hlead hrows
        exact ⟨more ++ arrays.flatMap w.split, by rw [hsplit]; rfl⟩

theorem mem_statements {journal : List Note} {sql : String} :
    sql ∈ Journal.statements journal ↔ .executed sql ∈ journal := by
  rw [Journal.statements, List.mem_filterMap]
  constructor
  · rintro ⟨n, hn, heq⟩
    cases n <;> simp_all
  · intro h
    exact ⟨_, h, rfl⟩

theorem mem_traffic {n : Note} : n ∈ traffic s ↔ n ∈ s.journal.toList ∧ isTraffic n = true :=
  List.mem_filter

/-- Whatever went to the database is one of the statements. -/
theorem Sent.mem {α : Type} {batches : List (List String)} {own : σ}
    {end' : Except Failure α × Session σ} (h : w.Sent batches { own := own } end') {n : Note}
    (hn : n ∈ traffic end'.2) :
    ∃ rows ∈ batches, n = .executed (w.statement rows) ∨ n = .refused (w.statement rows) := by
  obtain ⟨outcome, s'⟩ := end'
  cases outcome with
  | ok a =>
      rw [Sent] at h
      rw [h] at hn
      obtain ⟨sql, hsql, rfl⟩ := List.mem_map.mp hn
      obtain ⟨rows, hrows, rfl⟩ := List.mem_map.mp hsql
      exact ⟨rows, hrows, .inl rfl⟩
  | error e =>
      obtain ⟨done, last, _, hdone, -, -, htraffic⟩ := h
      rw [htraffic] at hn
      rcases List.mem_append.mp hn with hn | hn
      · obtain ⟨sql, hsql, rfl⟩ := List.mem_map.mp hn
        obtain ⟨rows, hrows, rfl⟩ := List.mem_map.mp hsql
        exact ⟨rows, hdone.subset (List.mem_append_left _ hrows), .inl rfl⟩
      · obtain rfl := List.mem_singleton.mp hn
        exact ⟨last, hdone.subset (List.mem_append_right _ (List.mem_singleton_self _)), .inr rfl⟩

/-- The first of the statements goes to the database in any case. -/
theorem Sent.first {α : Type} {rows : List String} {more : List (List String)} {own : σ}
    {end' : Except Failure α × Session σ} (h : w.Sent (rows :: more) { own := own } end') :
    .executed (w.statement rows) ∈ traffic end'.2 ∨
      .refused (w.statement rows) ∈ traffic end'.2 := by
  obtain ⟨outcome, s'⟩ := end'
  cases outcome with
  | ok a =>
      rw [Sent] at h
      left
      rw [h]
      exact List.mem_cons_self
  | error e =>
      obtain ⟨done, last, _, hdone, -, -, htraffic⟩ := h
      rw [htraffic]
      cases done with
      | nil =>
          obtain ⟨rfl, -⟩ := List.cons_prefix_cons.mp hdone
          right
          exact List.mem_cons_self
      | cons first done =>
          obtain ⟨rfl, -⟩ := List.cons_prefix_cons.mp hdone
          left
          exact List.mem_cons_self

/-- What a fresh batch did while these arrays were inserted. -/
def journalOf (w : Inserter) (arrays : List (List String)) (own : σ) : List Note :=
  ((w.performAll {} (Request.ofArrays arrays)).start own).2.journal.toList

/-- Every statement that goes to the database has a tuple, unless the lead of a statement is past
the threshold and there is any row. -/
theorem every_statement_inserts_iff (w : Inserter) {arrays : List (List String)}
    (hfilled : ∀ rows ∈ arrays, "" ∉ rows) (own : σ) :
    (∀ sql, .executed sql ∈ w.journalOf arrays own ∨ .refused sql ∈ w.journalOf arrays own →
      w.Inserts sql) ↔ (w.lead.length : Int) ≤ w.threshold ∨ ∀ rows ∈ arrays, rows = [] := by
  have hsent := arrays_sends w arrays own
  have hmem : ∀ sql, (.executed sql ∈ w.journalOf arrays own ∨
      .refused sql ∈ w.journalOf arrays own) ↔
      .executed sql ∈ traffic ((w.performAll {} (Request.ofArrays arrays)).start own).2 ∨
      .refused sql ∈ traffic ((w.performAll {} (Request.ofArrays arrays)).start own).2 := by
    intro sql
    simp [mem_traffic, isTraffic, journalOf]
  simp only [hmem]
  constructor
  · intro hall
    by_contra hnot
    rw [not_or, Int.not_le] at hnot
    obtain ⟨hlead, harrays⟩ := hnot
    obtain ⟨more, hsplit⟩ := flatMap_split_eq_cons hlead (by simpa using harrays)
    rw [hsplit] at hsent
    exact not_inserts_nil w (hall _ hsent.first)
  · intro hor sql hsql
    obtain ⟨batch, hbatch, heq⟩ : ∃ batch ∈ arrays.flatMap w.split, sql = w.statement batch := by
      rcases hsql with hsql | hsql
      · obtain ⟨batch, hbatch, heq⟩ := hsent.mem hsql
        exact ⟨batch, hbatch, by simpa using heq⟩
      · obtain ⟨batch, hbatch, heq⟩ := hsent.mem hsql
        exact ⟨batch, hbatch, by simpa using heq⟩
    obtain ⟨rows, hrows, hbatch⟩ := List.mem_flatMap.mp hbatch
    refine ⟨batch, ?_, ?_, heq⟩
    · rintro rfl
      obtain ⟨hlead, hne⟩ := nil_mem_split.mp hbatch
      rcases hor with hwithin | hempty
      · omega
      · exact hne (hempty rows hrows)
    · intro hnil
      have hrow : "" ∈ (w.split rows).flatten := List.mem_flatten.mpr ⟨batch, hbatch, hnil⟩
      rw [split, flatten_splitFrom] at hrow
      exact hfilled rows hrows hrow

/-- An inserter whose statements begin with as many characters as its threshold allows. -/
def exactInserter : Inserter := ⟨⟨"postgresql", false, none⟩, "t", "zzz___t___", 30⟩

theorem exact_inserts : (∀ rows ∈ [[], ["(1)", "(2)"]], "" ∉ rows) ∧
    ∀ sql, .executed sql ∈ exactInserter.journalOf [[], ["(1)", "(2)"]] () ∨
      .refused sql ∈ exactInserter.journalOf [[], ["(1)", "(2)"]] () →
        exactInserter.Inserts sql := by
  have hfilled : ∀ rows ∈ [[], ["(1)", "(2)"]], "" ∉ rows := by decide
  exact ⟨hfilled, (every_statement_inserts_iff exactInserter hfilled ()).mpr (.inl (by decide))⟩

/-- An inserter whose statements begin with more characters than its threshold allows. -/
def tightInserter : Inserter := ⟨⟨"postgresql", false, none⟩, "t", "zzz___t___", 0⟩

/-- Before its first row such an inserter executes a statement without tuples. -/
theorem lead_executed_alone : ¬∀ sql, .executed sql ∈ tightInserter.journalOf [["(1)"]] () ∨
    .refused sql ∈ tightInserter.journalOf [["(1)"]] () → tightInserter.Inserts sql := by
  intro hall
  have hexecuted : "INSERT INTO zzz___t___ VALUES ;\n"
      ∈ Journal.statements (tightInserter.journalOf [["(1)"]] ()) := by decide +kernel
  exact not_inserts_nil tightInserter (hall _ (.inl (mem_statements.mp hexecuted)))

/-! ### Greedy statements -/

/-- What was executed and what the batch holds are the rows written so far, and the numbers of the
batch say so. -/
structure Accounts (w : Inserter) (requests : List Request) (done : List (List String))
    (current : List String) (b : Batch) (s : Session σ) : Prop where
  rows : done.flatten ++ current = requests.filterMap Request.row?
  executed : Journal.statements s.journal.toList = done.map w.statement
  text : b.text = w.gathered current ∨ b.text = "" ∧ current = []
  size : b.size = b.text.length
  pending : b.pending = current.length
  statements : b.statements = done.length
  inserted : b.rows = done.flatten.length

theorem statements_traffic (s : Session σ) :
    Journal.statements s.journal.toList = Journal.statements (traffic s) := by
  rw [traffic, Journal.statements, Journal.statements, List.filterMap_filter]
  congr 1
  funext n
  cases n <;> rfl

theorem statements_executed (statements : List String) :
    Journal.statements (statements.map .executed) = statements := by
  rw [Journal.statements, List.filterMap_map]
  exact List.filterMap_some

theorem accounts_of_tracks {requests : List Request} {inside : Bool}
    (hrows : done.flatten ++ current = requests.filterMap Request.row?)
    (hexecuted : Journal.statements s.journal.toList = done.map w.statement)
    (h : b.Tracks w.lead inside done current) : w.Accounts requests done current b s := by
  obtain ⟨hb, hstatements, hinserted⟩ := h
  cases inside with
  | true =>
      have hb : b.Holds w.lead current := hb
      exact ⟨hrows, hexecuted, .inl hb.text, hb.size, hb.pending, hstatements, hinserted⟩
  | false =>
      obtain ⟨htext, hsize, hpending, rfl⟩ := hb
      exact ⟨hrows, hexecuted, .inr ⟨htext, rfl⟩, by rw [hsize, htext]; rfl, hpending, hstatements,
        hinserted⟩

/-- If the lead of a statement is within the threshold, every array is split greedily, and this is
the only way to do so. After every request the batch says what it holds and what it has done; only
a failure of the database ends the requests, and then the statements before it were executed. -/
theorem arrays_split (w : Inserter) (hlead : (w.lead.length : Int) ≤ w.threshold)
    (arrays : List (List String)) {requests : List Request}
    (hrequests : requests <+: Request.ofArrays arrays) (own : σ) :
    (∀ rows runs, w.Splits rows runs ↔ runs = w.split rows) ∧
    match (w.performAll {} requests).start own with
    | (.ok b, s) => ∃ done current, w.Accounts requests done current b s ∧
        done <+: arrays.flatMap w.split ∧
        (requests = Request.ofArrays arrays → done = arrays.flatMap w.split ∧ current = [])
    | (.error e, s) => ∃ done rows n, done ++ [rows] <+: arrays.flatMap w.split ∧
        w.executor.failAt = some n ∧ e = .database n ∧
        Journal.statements s.journal.toList = done.map w.statement := by
  refine ⟨fun rows runs => splits_iff hlead, ?_⟩
  obtain ⟨more, hmore⟩ := hrequests
  have hinitial : (w.turns [] requests).1 <+: arrays.flatMap w.split := by
    have hall := turns_ofArrays w arrays
    rw [← hmore, turns_append] at hall
    exact ⟨_, congrArg Prod.fst hall⟩
  have hturn : Request.InTurn false requests :=
    (hmore ▸ Request.inTurn_ofArrays arrays).of_append
  have hrows := flatten_turns w [] hturn fun _ => rfl
  obtain ⟨hsent, htracks⟩ := performAll_sends hturn (tracks_fresh w.lead) { own := own }
  rw [Run.start]
  cases hrun : (w.performAll {} requests).run { own := own } with
  | mk outcome s =>
      rw [hrun] at hsent
      cases outcome with
      | ok b =>
          obtain ⟨inside, hb⟩ := htracks b s hrun
          rw [Sent] at hsent
          refine ⟨_, _, accounts_of_tracks hrows ?_ hb, hinitial, ?_⟩
          · rw [statements_traffic, hsent]
            exact statements_executed _
          · rintro rfl
            rw [turns_ofArrays]
            exact ⟨rfl, rfl⟩
      | error e =>
          obtain ⟨done, rows, n, hdone, hfail, he, htraffic⟩ := hsent
          refine ⟨done, rows, n, hdone.trans hinitial, hfail, he, ?_⟩
          rw [statements_traffic, htraffic, Journal.statements, List.filterMap_append]
          exact (List.append_nil _).trans (statements_executed _)

/-- An inserter with room for one tuple of three characters, and for one character more. -/
def snugInserter : Inserter := { exactInserter with threshold := 34 }

theorem snug_split : (snugInserter.lead.length : Int) ≤ snugInserter.threshold ∧
    Request.ofArrays [["(1)", "(2)", "(3)"], []] <+: Request.ofArrays [["(1)", "(2)", "(3)"], []] ∧
    ∃ b s, (snugInserter.performAll {} (Request.ofArrays [["(1)", "(2)", "(3)"], []])).start ()
        = (.ok b, s) ∧ b.statements = 2 ∧ b.rows = 3 ∧
      Journal.statements s.journal.toList = ["INSERT INTO zzz___t___ VALUES (1),(2);\n",
        "INSERT INTO zzz___t___ VALUES (3);\n"] := by
  have hlead : (snugInserter.lead.length : Int) ≤ snugInserter.threshold := by decide
  refine ⟨hlead, List.prefix_rfl, ?_⟩
  have hsplit := (arrays_split snugInserter hlead [["(1)", "(2)", "(3)"], []] List.prefix_rfl ()).2
  split at hsplit
  · rename_i b s hrun
    obtain ⟨done, current, haccounts, -, hall⟩ := hsplit
    obtain ⟨rfl, -⟩ := hall rfl
    refine ⟨b, s, hrun, ?_, ?_, ?_⟩
    · rw [haccounts.statements]
      decide
    · rw [haccounts.inserted]
      decide
    · rw [haccounts.executed]
      decide
  · obtain ⟨_, _, n, -, hfail, -⟩ := hsplit
    cases hfail

end Inserter

end Staging.Sql
