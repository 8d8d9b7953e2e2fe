import Staging.Proofs.Json.Canonical
import Staging.Proofs.Schema.Inference

/-!
# The columns of an inferred schema

Inference keeps the names in use with it from field to field, so the columns it ends with are named
after their fields, apart from each other and apart from the reserved names (`infer_named`). Only
the identifier gets the type of identifiers, and its column is the first (`infer_id_first`).
-/

namespace Staging.Schema

variable {t : Table} {fields : FieldCounts} {columns : List Column}

/-! ## Names -/

/-- Columns with the names of their fields, none of them taken before or given twice. -/
structure Named (taken : List String) (columns : List Column) : Prop where
  name_eq : ∀ c ∈ columns, c.name = columnName c.source
  free : ∀ c ∈ columns, c.name ∉ taken
  nodup : (columns.map (·.name)).Nodup

theorem named_nil (taken : List String) : Named taken [] := by
  refine ⟨?_, ?_, List.nodup_nil⟩ <;> intro c hc <;> cases hc

/-- One field further: a free name in front of columns that avoid it. -/
theorem Named.cons {taken : List String} {c : Column} (hname : c.name = columnName c.source)
    (hfree : c.name ∉ taken) (h : Named (c.name :: taken) columns) :
    Named taken (c :: columns) where
  name_eq := List.forall_mem_cons.mpr ⟨hname, h.name_eq⟩
  free := by
    refine List.forall_mem_cons.mpr ⟨hfree, ?_⟩
    intro d hd htaken
    exact h.free d hd (List.mem_cons_of_mem c.name htaken)
  nodup := by
    rw [List.map_cons, List.nodup_cons]
    refine ⟨?_, h.nodup⟩
    intro hmem
    obtain ⟨d, hd, heq⟩ := List.mem_map.mp hmem
    exact h.free d hd (heq ▸ List.mem_cons_self)

theorem inferFrom_named {taken : List (String × String)}
    (h : inferFrom t taken fields = ⟨columns, none⟩) : Named (taken.map Prod.fst) columns := by
  induction fields generalizing taken columns with
  | nil =>
      obtain ⟨rfl, -⟩ := Inferred.mk.inj h
      exact named_nil _
  | cons p fields ih =>
      obtain ⟨type, more, -, hfree, rfl, hmore⟩ := inferFrom_cons h
      exact .cons rfl (Members.not_mem_of_lookup_eq_none hfree) (ih hmore)

theorem infer_named (h : infer t fields = ⟨columns, none⟩) : Named reservedColumns columns := by
  have hnamed := inferFrom_named h
  rwa [List.map_map, Function.comp_def, List.map_id'] at hnamed

/-! ## Sources -/

theorem exists_column_iff (h : infer t fields = ⟨columns, none⟩) (field : String) :
    (∃ c ∈ columns, c.source = field) ↔ field ∈ fields.map Prod.fst := by
  have hperm := (Json.sortMembers_perm fields).map Prod.fst
  rw [← List.mem_map, infer_sources h, hperm.mem_iff]

/-- Two columns of one field would have one name. -/
theorem infer_sources_nodup (h : infer t fields = ⟨columns, none⟩) :
    (columns.map (·.source)).Nodup := by
  have hnamed := infer_named h
  have hnames : columns.map (·.name) = (columns.map (·.source)).map columnName := by
    rw [List.map_map]
    exact List.map_congr_left hnamed.name_eq
  exact List.Nodup.of_map columnName (hnames ▸ hnamed.nodup)

/-! ## The identifier -/

/-- No tallies select the type of identifiers. -/
theorem selectType_eq_id_iff {field : String} {c : Counts} :
    selectType field c = .ok .id ↔ field = idField := by
  constructor
  · intro h
    by_contra hfield
    cases selected_of_selectType hfield h
  · rintro rfl
    exact selectType_id c

theorem infer_type_eq_id_iff (h : infer t fields = ⟨columns, none⟩) {c : Column}
    (hc : c ∈ columns) : c.type = .id ↔ c.source = idField := by
  obtain ⟨p, -, hsource, htype⟩ := exists_of_mem_forall₂ (inferFrom_ok h) hc
  rw [hsource, ← selectType_eq_id_iff (c := p.2), htype, Except.ok.injEq]

/-- The identifier stands before every other name, so its column is the first. -/
theorem infer_id_first (h : infer t fields = ⟨columns, none⟩) :
    ∀ c ∈ columns.tail, c.type ≠ .id := by
  have hsorted : (columns.map (·.source)).Pairwise fun a b => Json.nameLe a b = true := by
    rw [infer_sources h, List.pairwise_map]
    exact Json.sortMembers_pairwise fields
  have hnodup := infer_sources_nodup h
  have htype := fun c => infer_type_eq_id_iff h (c := c)
  cases columns with
  | nil => simp
  | cons first columns =>
      intro c hc hid
      have hsource := (htype c (List.mem_cons_of_mem first hc)).mp hid
      have hmem : idField ∈ columns.map (·.source) := hsource ▸ List.mem_map_of_mem hc
      rw [List.map_cons, List.pairwise_cons] at hsorted
      rw [List.map_cons, List.nodup_cons] at hnodup
      -- only the identifier itself may stand before it
      have hfirst : first.source = idField := by
        have hle := hsorted.1 idField hmem
        unfold Json.nameLe at hle
        by_contra hne
        simp [hne] at hle
      exact hnodup.1 (hfirst ▸ hmem)

end Staging.Schema
