import Staging.Proofs.Sql.Tuple

/-!
# What is reported about a record

A cell that is a substitute leaves a warning and a count behind, any other leaves nothing; the
reports of a row are those of its cells in order (`encodeRow_ok`).
-/

namespace Staging.Sql.Encoder

variable {σ : Type} {e : Encoder} {record : Json} {id : String} {s : Session σ}

/-- The notes of a substitution in the record `id`, while this table is staged. -/
def reportOf (e : Encoder) (staged : Option String) (id : String) (sub : Substitution) :
    List Note :=
  [.logged (Log.staged staged channel Log.Level.warning (sub.message e.table.name id)
      (sub.fields e.table.name id)),
    .counted (.valueSubstitutions e.table.name sub.reason) 1]

/-- The session after these substitutions in the record `id` were reported. -/
def reported (e : Encoder) (id : String) (subs : List Substitution) (s : Session σ) : Session σ :=
  { s with journal := s.journal ++ subs.flatMap (e.reportOf s.table id) }

theorem reported_nil (e : Encoder) (id : String) (s : Session σ) : e.reported id [] s = s := by
  simp [reported]

theorem reported_cons (e : Encoder) (id : String) (sub : Substitution) (subs : List Substitution)
    (s : Session σ) :
    e.reported id (sub :: subs) s = e.reported id subs (e.reported id [sub] s) := by
  have hjoin : s.journal ++ (sub :: subs).flatMap (e.reportOf s.table id)
      = s.journal ++ e.reportOf s.table id sub ++ subs.flatMap (e.reportOf s.table id) :=
    Array.toList_inj.mp (by simp)
  rw [reported, reported, reported, hjoin, List.flatMap_singleton]

theorem run_report (e : Encoder) (id : String) (sub : Substitution) (s : Session σ) :
    (e.report id sub).run s = (.ok (), e.reported id [sub] s) := by
  rw [reported, List.flatMap_singleton]
  rfl

theorem run_reports (e : Encoder) (id : String) (subs : List Substitution) (s : Session σ) :
    (subs.forM (e.report id) : Run σ PUnit).run s = (.ok (), e.reported id subs s) := by
  induction subs generalizing s with
  | nil => rw [reported_nil]; rfl
  | cons sub subs ih =>
      show ((e.report id sub >>= fun _ => subs.forM (e.report id)) : Run σ PUnit).run s = _
      rw [Run.run_bind_ok (run_report e id sub s), ih, ← reported_cons]

/-- A cell is written with the report of what it is a substitute for. -/
theorem run_writeCell (e : Encoder) (id : String) (cell : Cell) (s : Session σ) :
    (e.writeCell id (.ok cell)).run s
      = (.ok cell.text, e.reported id cell.substitution.toList s) := by
  obtain ⟨text, _ | sub⟩ := cell
  · rw [Option.toList_none, reported_nil]
    rfl
  · rw [Option.toList_some, reported, List.flatMap_singleton]
    rfl

/-! ## Rows -/

theorem gathered_substitutions (cells : List Cell) :
    ((cells.map Except.ok).foldr Row.cons ⟨[], .ok []⟩).substitutions
      = cells.filterMap (·.substitution) := by
  induction cells with
  | nil => rfl
  | cons cell cells ih =>
      rw [List.map_cons, List.foldr_cons, Row.cons, ih]
      cases h : cell.substitution <;> simp [h]

/-- Cells that were all encoded, and their texts. -/
theorem cells_ok {outcomes : List (Except Failure Cell)} {texts : List String}
    (h : List.Forall₂ (fun outcome t => ∃ c, outcome = .ok c ∧ c.text = t) outcomes texts) :
    ∃ cells : List Cell, outcomes = cells.map Except.ok ∧ texts = cells.map (·.text) := by
  induction h with
  | nil => exact ⟨[], rfl, rfl⟩
  | cons hcell _ ih =>
      obtain ⟨cell, rfl, rfl⟩ := hcell
      obtain ⟨cells, rfl, rfl⟩ := ih
      exact ⟨cell :: cells, rfl, rfl⟩

/-- A row that was encoded has a cell in every place, and reports what is substituted in them. -/
theorem encodeRow_ok {text : String} (h : ((e.encodeRow record).run s).1 = .ok text) :
    ∃ id, ∃ cells : List Cell, recordId? record = some id ∧
      List.Forall₂ (fun slot cell => e.cell record id slot = .ok cell) (slots e.table) cells ∧
      text = tuple (cells.map (·.text)) ∧
      ((e.encodeRow record).run s).2 = e.reported id (cells.filterMap (·.substitution)) s := by
  rw [encodeRow_outcome] at h
  obtain ⟨id, texts, hid, hcells, rfl⟩ := rowText_ok.mp h
  obtain ⟨cells, hok, rfl⟩ := cells_ok hcells
  refine ⟨id, cells, hid, ?_, rfl, ?_⟩
  · have hslots : (slots e.table).map (e.cell record id) = cells.map Except.ok := by
      rw [← cells_eq, hok]
    rwa [← List.forall₂_eq_eq_eq, List.forall₂_map_left_iff, List.forall₂_map_right_iff] at hslots
  · rw [encodeRow, hid]
    simp only
    rw [encodeCells, hok, gathered_substitutions, Run.run_bind_ok (run_reports e id _ s),
      gathered_ok.mpr (by rwa [hok] at hcells)]
    rfl

end Staging.Sql.Encoder
