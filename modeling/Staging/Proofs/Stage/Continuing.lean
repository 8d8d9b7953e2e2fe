import Staging.Proofs.Stage.Causes
import Staging.Proofs.Stage.Independence

/-!
# Going on after a table that failed

Where a run is to go on after a failure, it goes on after one of the data: every table that is not
to be skipped has its turn, in order, and one that fails is rolled back and reported. A failure that
is not one of the data ends the run all the same (`tables_continue`).
-/

namespace Staging.Stage

open Schema

variable {p : Plan} {d : Sql.Dialect} {sent : Nat} {tables held : List Table} {places : List Nat}
  {turns : List Turn} {turn : Turn} {stop : Option Failure} {failure : Failure}

/-! ## Turns in order -/

/-- The tables at some places that are not to be skipped. -/
def unskipped (places : List Nat) (tables : List Table) : List Table :=
  (places.filterMap (tables[·]?)).filter (!·.skip)

theorem unskipped_passed {place : Nat} {rest : List Nat}
    (h : ∀ t, tables[place]? = some t → t.skip = true) :
    unskipped (place :: rest) tables = unskipped rest tables := by
  unfold unskipped
  rw [List.filterMap_cons]
  split
  · rfl
  · rename_i t hplace
    rw [List.filter_cons_of_neg (by simp [h t hplace])]

theorem unskipped_taken {place : Nat} {rest : List Nat} {t : Table} (h : tables[place]? = some t)
    (hskip : t.skip = false) :
    unskipped (place :: rest) tables = t :: unskipped rest tables := by
  unfold unskipped
  rw [List.filterMap_cons_some h, List.filter_cons_of_pos (by simp [hskip])]

/-- What becomes of a table makes no difference at other places. -/
theorem unskipped_set {place : Nat} {rest : List Nat} (h : place ∉ rest) (t : Table) :
    unskipped rest (tables.set place t) = unskipped rest tables := by
  unfold unskipped
  congr 1
  refine List.filterMap_congr fun other hother => List.getElem?_set_ne ?_
  rintro rfl
  exact h hother

theorem unskipped_range (tables : List Table) :
    unskipped (List.range tables.length) tables = tables.filter (!·.skip) := by
  have hall : (List.range tables.length).filterMap (tables[·]?) = tables := by
    induction tables with
    | nil => rfl
    | cons t tables ih =>
        have hfirst : (t :: tables)[0]? = some t := rfl
        rw [List.length_cons, List.range_succ_eq_map, List.filterMap_cons_some hfirst,
          List.filterMap_map]
        exact congrArg (t :: ·) ih
  rw [unskipped, hall]

/-- Tables that come up once each have their turns in order, and all of them if the run does not end
before. -/
theorem Plan.Turns.inOrder (h : p.Turns sent tables places turns held stop)
    (hnodup : places.Nodup) : turns.map (·.table) <+: unskipped places tables ∧
      (stop = none → turns.map (·.table) = unskipped places tables) := by
  induction h with
  | finished sent tables => exact ⟨List.prefix_rfl, fun _ => rfl⟩
  | passed hpassed _ ih =>
      rw [unskipped_passed hpassed]
      exact ih (List.nodup_cons.mp hnodup).2
  | taken hplace hskip _ _ ih =>
      obtain ⟨hnew, hrest⟩ := List.nodup_cons.mp hnodup
      obtain ⟨hinitial, hall⟩ := ih hrest
      rw [unskipped_set hnew] at hinitial hall
      rw [unskipped_taken hplace hskip]
      exact ⟨List.cons_prefix_cons.mpr ⟨rfl, hinitial⟩, fun hstop => congrArg _ (hall hstop)⟩
  | halted hplace hskip _ =>
      rw [unskipped_taken hplace hskip]
      exact ⟨List.cons_prefix_cons.mpr ⟨rfl, List.nil_prefix⟩, nofun⟩

/-- Only the failure of the last table ends a run. -/
theorem Plan.Turns.goes (h : p.Turns sent tables places turns held stop) (hstop : stop = none) :
    ∀ turn ∈ turns, ∀ failure, ¬p.Halts turn failure := by
  induction h with
  | finished sent tables => exact List.forall_mem_nil _
  | passed _ _ ih => exact ih hstop
  | taken _ _ hgoes _ ih => exact List.forall_mem_cons.mpr ⟨hgoes, ih hstop⟩
  | halted _ _ _ => cases hstop

theorem stop_eq_none {outcome : Except Failure (List Result)} {results : List Result}
    (h : ∀ failure, stop = some failure ↔ outcome = .error failure)
    (houtcome : outcome = .ok results) : stop = none := by
  cases stop with
  | none => rfl
  | some failure => cases houtcome.symm.trans ((h failure).mp rfl)

/-! ## Going on -/

/-- What is known of a run that is to go on, by the turns that were taken: what is known of every
run, and that only the data of a table can fail without ending it. -/
structure Continues (p : Plan) (d : Sql.Dialect) (places : List Nat) (tables : List Table)
    (outcome : Except Failure (List Result)) (session : Session (List Table))
    (turns : List Turn) : Prop where
  bracketed : Bracketed p places tables outcome session turns
  known : ∀ turn ∈ turns, ∀ failure, (p.take turn).1 = .error failure →
    IsKnown (p.stagerIn d) turn.table failure
  returns_iff : (∃ results, outcome = .ok results) ↔
    ∀ turn ∈ turns, ∀ failure, ¬((p.take turn).1 = .error failure ∧
      Foreign (p.stagerIn d) turn.table failure)
  raised : ∀ failure, outcome = .error failure → ∃ earlier last, turns = earlier ++ [last] ∧
    (p.take last).1 = .error failure ∧ Foreign (p.stagerIn d) last.table failure

section

variable (hgoes : p.settings.continueOnTableFailure = true)
  (hdialect : Sql.Dialect.ofName p.dialectName = .ok d)

include hdialect

/-- In a known dialect a table is staged by itself. -/
theorem take_eq (turn : Turn) : p.take turn
    = (p.stagerIn d).stage.run { sent := turn.sent, own := { table := turn.table } } := by
  unfold Plan.take Plan.work Plan.stager
  rw [hdialect]
  rfl

theorem take_cause (h : (p.take turn).1 = .error failure) :
    IsKnown (p.stagerIn d) turn.table failure := by
  rw [take_eq hdialect] at h
  exact stage_cause (Prod.ext h rfl)

include hgoes

/-- A run that is to go on is ended by what is not a failure of the data. -/
theorem halts_iff : p.Halts turn failure ↔
    (p.take turn).1 = .error failure ∧ Foreign (p.stagerIn d) turn.table failure := by
  unfold Plan.Halts
  rw [hgoes]
  constructor
  · rintro ⟨htake, hstaging⟩
    refine ⟨htake, (take_cause hdialect htake).resolve_left ?_⟩
    simpa using hstaging
  · rintro ⟨htake, hforeign⟩
    exact ⟨htake, .inl hforeign.not_staging⟩

theorem places_continue (places : List Nat) (tables : List Table) : ∃ turns,
    Continues p d places tables ((p.stagePlaces places).start tables).1
      ((p.stagePlaces places).start tables).2 turns := by
  obtain ⟨turns, hbracketed⟩ := start_bracketed p places tables
  obtain ⟨stop, hturns, hstop⟩ := hbracketed.taken
  refine ⟨turns, ?_⟩
  generalize (p.stagePlaces places).start tables = run at *
  obtain ⟨outcome, session⟩ := run
  dsimp only at *
  constructor
  case bracketed => exact hbracketed
  case known => exact fun turn _ failure => take_cause hdialect
  case returns_iff =>
    constructor
    · rintro ⟨results, houtcome⟩ turn hturn failure hforeign
      exact hturns.goes (stop_eq_none hstop houtcome) turn hturn failure
        ((halts_iff hgoes hdialect).mpr hforeign)
    · intro hnever
      cases outcome with
      | ok results => exact ⟨results, rfl⟩
      | error failure =>
          obtain ⟨earlier, last, rfl, hhalts⟩ := hbracketed.raised failure rfl
          exact absurd ((halts_iff hgoes hdialect).mp hhalts)
            (hnever last (List.mem_append_right _ List.mem_cons_self) failure)
  case raised =>
    intro failure houtcome
    obtain ⟨earlier, last, heq, hhalts⟩ := hbracketed.raised failure houtcome
    exact ⟨earlier, last, heq, (halts_iff hgoes hdialect).mp hhalts⟩

/-- Where a run is to go on after a failure, it does so after every failure of the data: the table
is rolled back and reported, and those after it have their turns. Any other failure ends it. So if
nothing but its data can fail a table, there is a result for each that is not to be skipped. -/
theorem tables_continue :
    (∀ (places : List Nat) (tables : List Table), ∃ turns,
      Continues p d places tables ((p.stagePlaces places).start tables).1
        ((p.stagePlaces places).start tables).2 turns) ∧
    ∀ tables : List Table, ∃ turns,
      Continues p d (List.range tables.length) tables ((p.stageTables tables).start []).1
        ((p.stageTables tables).start []).2 turns ∧
      turns.map (·.table) <+: tables.filter (!·.skip) ∧
      (∀ results, ((p.stageTables tables).start []).1 = .ok results →
        turns.map (·.table) = tables.filter (!·.skip)) ∧
      ((∀ t ∈ tables, ∀ failure, ¬Foreign (p.stagerIn d) t failure) →
        ∃ results, ((p.stageTables tables).start []).1 = .ok results) := by
  refine ⟨places_continue hgoes hdialect, fun tables => ?_⟩
  obtain ⟨turns, hcontinues⟩ :=
    places_continue hgoes hdialect (List.range tables.length) tables
  obtain ⟨stop, hturns, hstop⟩ := hcontinues.bracketed.taken
  have horder := hturns.inOrder List.nodup_range
  rw [unskipped_range] at horder
  refine ⟨turns, hcontinues, horder.1,
    fun results houtcome => horder.2 (stop_eq_none hstop houtcome), fun hnever => ?_⟩
  refine hcontinues.returns_iff.mpr fun turn hturn failure hfailed => ?_
  have hmem := horder.1.subset (List.mem_map_of_mem (f := Turn.table) hturn)
  exact hnever turn.table (List.mem_filter.mp hmem).1 failure hfailed.2

end

/-- The first statement fails, which is one about users. -/
def interruptedPlan : Plan := { mixedPlan with executor := ⟨"postgresql", false, some 1⟩ }

/-- No result is returned, although the run was to go on. -/
theorem interrupted_stops : interruptedPlan.settings.continueOnTableFailure = true ∧
    Sql.Dialect.ofName interruptedPlan.dialectName = .ok .postgres ∧
    ¬∃ results, ((interruptedPlan.stageTables mixedTables).start []).1 = .ok results := by
  have hraised : ((interruptedPlan.stageTables mixedTables).start []).1 = .error (.database 1) :=
    Run.eq_of_failed? (by decide +kernel)
  refine ⟨rfl, rfl, ?_⟩
  rintro ⟨results, h⟩
  cases hraised.symm.trans h

theorem mixed_continues : mixedPlan.settings.continueOnTableFailure = true ∧
    Sql.Dialect.ofName mixedPlan.dialectName = .ok .postgres ∧
    ∃ turns results, ((mixedPlan.stageTables mixedTables).start []).1 = .ok results ∧
      results.map (·.phase) = [.failed, .skipped, .done] ∧
      turns.map (·.table.name) = ["users", "loans", "notes"] ∧
      List.Forall₂ (Reports mixedPlan) turns results := by
  have hgoes : mixedPlan.settings.continueOnTableFailure = true := rfl
  have hdialect : Sql.Dialect.ofName mixedPlan.dialectName = .ok .postgres := rfl
  have hphases : (((mixedPlan.stageTables mixedTables).start []).1.toOption.map
      (List.map (·.phase))) = some [.failed, .skipped, .done] := by
    decide +kernel
  obtain ⟨turns, hcontinues, -, hall, -⟩ := (tables_continue hgoes hdialect).2 mixedTables
  cases houtcome : ((mixedPlan.stageTables mixedTables).start []).1 with
  | error failure =>
      rw [houtcome] at hphases
      cases hphases
  | ok results =>
      rw [houtcome] at hphases
      refine ⟨hgoes, hdialect, turns, results, rfl, Option.some.inj hphases, ?_,
        (hcontinues.bracketed.returned results houtcome).1⟩
      have htables := congrArg (List.map Table.name) (hall results houtcome)
      rw [List.map_map] at htables
      exact htables

end Staging.Stage
