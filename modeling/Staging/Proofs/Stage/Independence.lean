import Mathlib.Data.List.Forall2
import Staging.Proofs.Stage.Transactions

/-!
# Tables by themselves

Over a database that never fails nothing of a table is left for the next one: what a run over many
tables returns, notes and leaves of the tables are the parts of the single tables, one after the
other (`run_of_parts`).
-/

namespace Staging.Stage

open Schema

variable {p : Plan} {t : Table} {place : Nat} {s : Session (List Table)}

/-! ## A turn behind other turns -/

/-- Statements that were sent before a turn are only added to those of the turn. -/
theorem take_later (hnever : p.executor.failAt = none) (turn : Turn) :
    p.take turn = ((p.take ⟨turn.table, 0⟩).1, (p.take ⟨turn.table, 0⟩).2.after #[] turn.sent) :=
  Plan.later_work p (.inr hnever) #[] { own := { table := turn.table } }

theorem answer_later (hnever : p.executor.failAt = none) (turn : Turn) :
    p.answer turn = p.answer ⟨turn.table, 0⟩ := by
  unfold Plan.answer
  rw [take_later hnever turn]
  simp only [Session.after]

theorem notes_later (hnever : p.executor.failAt = none) (turn : Turn) :
    p.notes turn = p.notes ⟨turn.table, 0⟩ := by
  unfold Plan.notes
  rw [take_later hnever turn]
  simp [Session.after]

/-! ## Parts -/

/-- The part of a table in a run: what is returned for it, what is noted, how many statements are
sent, and what becomes of the table. -/
structure Part where
  results : List Result
  notes : List Note
  sent : Nat
  table : Table

/-- The part that is a whole run. -/
def Part.session (part : Part) : Session (List Table) where
  journal := part.notes.toArray
  sent := part.sent
  own := [part.table]

/-- The session when a part is added to it, for the table at some place. -/
def Part.addTo (part : Part) (place : Nat) (s : Session (List Table)) : Session (List Table) where
  journal := s.journal ++ part.notes.toArray
  sent := s.sent + part.sent
  own := s.own.set place part.table

/-- The part of a table as it comes up first: nothing if it is to be skipped, else its turn. -/
inductive PartOf (p : Plan) (t : Table) : Part → Prop
  | passed (hskip : t.skip = true) : PartOf p t ⟨[], [], 0, t⟩
  | taken {result : Result} (hskip : t.skip = false) (h : p.answer ⟨t, 0⟩ = .ok result) :
    PartOf p t ⟨[result], p.notes ⟨t, 0⟩, (p.take ⟨t, 0⟩).2.sent, (p.take ⟨t, 0⟩).2.own.table⟩

/-- A table has its part wherever it comes up. -/
theorem run_stagePlaces_part (hnever : p.executor.failAt = none) (hs : s.table = none)
    (hplace : s.own[place]? = some t) {part : Part} (hpart : PartOf p t part) (rest : List Nat) :
    (p.stagePlaces (place :: rest)).run s =
      (((p.stagePlaces rest).run (part.addTo place s)).1.map (part.results ++ ·),
        ((p.stagePlaces rest).run (part.addTo place s)).2) := by
  cases hpart with
  | passed hskip =>
      have hsame : Part.addTo ⟨[], [], 0, t⟩ place s = s := by
        obtain ⟨hlt, rfl⟩ := List.getElem?_eq_some_iff.mp hplace
        obtain ⟨journal, sent, table, own⟩ := s
        obtain rfl : table = none := hs
        simp [Part.addTo]
      rw [Plan.run_stagePlaces_passed (by simp [hplace, hskip]), hsame]
      cases (p.stagePlaces rest).run s with
      | mk outcome last => cases outcome <;> rfl
  | @taken result hskip hanswer =>
      rw [← answer_later hnever ⟨t, s.sent⟩] at hanswer
      have hnext : p.next place t s = Part.addTo ⟨[result], p.notes ⟨t, 0⟩,
          (p.take ⟨t, 0⟩).2.sent, (p.take ⟨t, 0⟩).2.own.table⟩ place s := by
        rw [Plan.next, notes_later hnever, take_later hnever]
        simp only [Part.addTo, Session.after]
      rw [Plan.run_stagePlaces_ok hs hplace hskip hanswer, hnext]
      rfl

/-- A table has a part, or else it ends every run in which it comes up. -/
theorem part_or_error (hnever : p.executor.failAt = none) (hs : s.table = none)
    (hplace : s.own[place]? = some t) : (∃ part, PartOf p t part) ∨
      ∃ failure, ∀ rest, ((p.stagePlaces (place :: rest)).run s).1 = .error failure := by
  cases hskip : t.skip with
  | true => exact .inl ⟨_, .passed hskip⟩
  | false =>
      cases hanswer : p.answer ⟨t, 0⟩ with
      | ok result => exact .inl ⟨_, .taken hskip hanswer⟩
      | error failure =>
          rw [← answer_later hnever ⟨t, s.sent⟩] at hanswer
          refine .inr ⟨failure, fun rest => ?_⟩
          rw [Plan.run_stagePlaces_error hs hplace hskip hanswer]

/-! ## All parts -/

/-- The session when these parts were added to it, for the tables behind those done with. -/
def sessionAfter (parts : List Part) (finished : List Table) (s : Session (List Table)) :
    Session (List Table) where
  journal := s.journal ++ (parts.flatMap (·.notes)).toArray
  sent := s.sent + (parts.map (·.sent)).sum
  own := finished ++ parts.map (·.table)

/-- A run that returns has a part of every table. -/
theorem exists_parts (hnever : p.executor.failAt = none) (tables finished : List Table)
    {s' : Session (List Table)} {results : List Result} (hs : s.table = none)
    (hown : s.own = finished ++ tables)
    (h : (p.stagePlaces (List.range' finished.length tables.length)).run s = (.ok results, s')) :
    ∃ parts, List.Forall₂ (PartOf p) tables parts := by
  induction tables generalizing finished s results with
  | nil => exact ⟨[], .nil⟩
  | cons t rest ih =>
      have hplace : s.own[finished.length]? = some t := by simp [hown]
      rw [List.length_cons, List.range'_succ] at h
      rcases part_or_error hnever hs hplace with ⟨part, hpart⟩ | ⟨failure, hfails⟩
      · rw [run_stagePlaces_part hnever hs hplace hpart] at h
        cases hrest : (p.stagePlaces (List.range' (finished.length + 1) rest.length)).run
          (part.addTo finished.length s) with
        | mk outcome last =>
        rw [hrest] at h
        cases outcome with
        | error failure => cases h
        | ok others =>
            obtain ⟨parts, hparts⟩ := ih (finished ++ [part.table])
              (s := part.addTo finished.length s) rfl (by simp [Part.addTo, hown])
              (by rw [List.length_append]; exact hrest.trans (congrArg _ (Prod.ext_iff.mp h).2))
            exact ⟨part :: parts, .cons hpart hparts⟩
      · have hfailed := hfails (List.range' (finished.length + 1) rest.length)
        rw [h] at hfailed
        cases hfailed

/-- If there is a part of every table, the run returns and is all these parts. -/
theorem run_of_parts (hnever : p.executor.failAt = none) {tables : List Table} {parts : List Part}
    (hparts : List.Forall₂ (PartOf p) tables parts) (finished : List Table) (hs : s.table = none)
    (hown : s.own = finished ++ tables) :
    (p.stagePlaces (List.range' finished.length tables.length)).run s
      = (.ok (parts.flatMap (·.results)), sessionAfter parts finished s) := by
  induction hparts generalizing finished s with
  | nil =>
      obtain ⟨journal, sent, table, own⟩ := s
      obtain rfl : table = none := hs
      obtain rfl : own = finished ++ [] := hown
      show (_, _) = (_, _)
      simp [sessionAfter]
  | @cons t part rest parts hpart _ ih =>
      have hplace : s.own[finished.length]? = some t := by simp [hown]
      have hrest := ih (finished ++ [part.table]) (s := part.addTo finished.length s) rfl
        (by simp [Part.addTo, hown])
      rw [List.length_append, List.length_singleton] at hrest
      rw [List.length_cons, List.range'_succ, run_stagePlaces_part hnever hs hplace hpart, hrest]
      simp [sessionAfter, Part.addTo, Except.map, Nat.add_assoc]

/-! ## One table, and many -/

/-- What comes of a table alone: of one that is to be skipped nothing, of another one result and one
transaction. -/
structure Alone (p : Plan) (t : Table) (part : Part) : Prop where
  run : (p.stageTables [t]).start [] = (.ok part.results, part.session)
  one : t.skip = true ∧ part.results = [] ∧ trace part.notes = [] ∨
    t.skip = false ∧ (∃ result, part.results = [result]) ∧ trace part.notes = p.block ⟨t, 0⟩

/-- A run is these parts, one after the other. -/
structure Joins (parts : List Part) (returned : List Result) (session : Session (List Table)) :
    Prop where
  results : returned = parts.flatMap (·.results)
  journal : session.journal.toList = parts.flatMap (·.notes)
  seen : trace session.journal.toList = parts.flatMap (trace ·.notes)
  tables : session.own = parts.map (·.table)
  totals : ∀ series, Journal.total session.journal.toList series
    = (parts.map (Journal.total ·.notes series)).sum

theorem total_flatMap (parts : List Part) (series : Series) :
    Journal.total (parts.flatMap (·.notes)) series
      = (parts.map (Journal.total ·.notes series)).sum := by
  induction parts with
  | nil => rfl
  | cons part parts ih =>
      rw [List.flatMap_cons, total_append, ih, List.map_cons, List.sum_cons]

section

variable {tables : List Table} {parts : List Part}

theorem stageTables_of_parts (hnever : p.executor.failAt = none)
    (hparts : List.Forall₂ (PartOf p) tables parts) :
    (p.stageTables tables).start []
      = (.ok (parts.flatMap (·.results)), sessionAfter parts [] { own := tables }) := by
  have hrun := run_of_parts hnever hparts [] (s := { own := tables }) rfl rfl
  rw [List.length_nil, ← List.range_eq_range'] at hrun
  exact hrun

theorem joins_parts (parts : List Part) (tables : List Table) :
    Joins parts (parts.flatMap (·.results)) (sessionAfter parts [] { own := tables }) := by
  have hjournal : (sessionAfter parts [] { own := tables }).journal.toList
      = parts.flatMap (·.notes) := by simp [sessionAfter]
  constructor
  case results => rfl
  case journal => exact hjournal
  case seen =>
    rw [hjournal]
    exact List.filter_flatMap
  case tables => rfl
  case totals =>
    intro series
    rw [hjournal, total_flatMap]

theorem PartOf.alone (hnever : p.executor.failAt = none) {part : Part} (h : PartOf p t part) :
    Alone p t part where
  run := by
    rw [stageTables_of_parts hnever (.cons h .nil)]
    simp [sessionAfter, Part.session]
  one := by
    cases h with
    | passed hskip => exact .inl ⟨hskip, rfl, rfl⟩
    | taken hskip hanswer => exact .inr ⟨hskip, ⟨_, rfl⟩, trace_notes p ⟨t, 0⟩⟩

/-- Tables make no difference to each other: a run that returns is what comes of each table alone,
and with the tables in another order it is the same parts in that order. -/
theorem tables_independent {results : List Result} {session : Session (List Table)}
    (hnever : p.executor.failAt = none)
    (h : (p.stageTables tables).start [] = (.ok results, session)) :
    ∃ parts, List.Forall₂ (Alone p) tables parts ∧ Joins parts results session ∧
      ∀ tables', tables'.Perm tables → ∃ parts' results' session', parts'.Perm parts ∧
        List.Forall₂ (Alone p) tables' parts' ∧
        (p.stageTables tables').start [] = (.ok results', session') ∧
        Joins parts' results' session' := by
  have hrun : (p.stagePlaces (List.range' 0 tables.length)).run { own := tables }
      = (.ok results, session) := by
    rw [← List.range_eq_range']
    exact h
  obtain ⟨parts, hparts⟩ := exists_parts hnever tables [] (s := { own := tables }) rfl rfl hrun
  rw [stageTables_of_parts hnever hparts] at h
  obtain ⟨hresults, rfl⟩ := Prod.ext_iff.mp h
  obtain rfl := Except.ok.inj hresults
  refine ⟨parts, hparts.imp fun _ _ => PartOf.alone hnever, joins_parts parts tables, ?_⟩
  intro tables' hperm
  obtain ⟨parts', hparts', hperm'⟩ := List.perm_comp_forall₂ hperm hparts
  exact ⟨parts', _, _, hperm', hparts'.imp fun _ _ => PartOf.alone hnever,
    stageTables_of_parts hnever hparts', joins_parts parts' tables'⟩

end

/-- Notes, users one of whom lacks an identifier, and nothing else. -/
def mixedPlan : Plan where
  files := fun path =>
    if path = "/d/users_count.txt" then .file "1".toUTF8.toList
    else if path = "/d/users_0.json" then
      .file "[\x7b\"id\":\"a\"\x7d,\x7b\"id\":null\x7d]".toUTF8.toList
    else noteFiles path
  executor := ⟨"postgresql", false, none⟩
  loadDir := "/d"
  settings := { insertFlushThreshold := 40 }

def userTable : Table := { name := "users", sourcePath := "/users", moduleName := "mod-users" }

/-- Users fail in the middle of a page, notes come up to be skipped and again to be staged, and
loans were not extracted. -/
def mixedTables : List Table :=
  [userTable, { noteTable with skip := true },
    { name := "loans", sourcePath := "/loans", moduleName := "mod-circulation" }, noteTable]

theorem mixed_independent : mixedPlan.executor.failAt = none ∧
    ∃ results session, (mixedPlan.stageTables mixedTables).start [] = (.ok results, session) ∧
      results.map (·.phase) = [.failed, .skipped, .done] ∧
      ∃ parts, List.Forall₂ (Alone mixedPlan) mixedTables parts ∧ Joins parts results session ∧
        ∃ parts' results' session', parts'.Perm parts ∧
          (mixedPlan.stageTables mixedTables.reverse).start [] = (.ok results', session') ∧
          Joins parts' results' session' := by
  have hphases : (((mixedPlan.stageTables mixedTables).start []).1.toOption.map
      (List.map (·.phase))) = some [.failed, .skipped, .done] := by
    decide +kernel
  refine ⟨rfl, ?_⟩
  cases hrun : (mixedPlan.stageTables mixedTables).start [] with
  | mk outcome session =>
      rw [hrun] at hphases
      cases outcome with
      | error failure => cases hphases
      | ok results =>
          obtain ⟨parts, hparts, hjoins, hpermuted⟩ := tables_independent rfl hrun
          obtain ⟨parts', results', session', hperm, -, hrun', hjoins'⟩ :=
            hpermuted mixedTables.reverse (List.reverse_perm _)
          exact ⟨results, session, rfl, Option.some.inj hphases, parts, hparts, hjoins, parts',
            results', session', hperm, hrun', hjoins'⟩

end Staging.Stage
