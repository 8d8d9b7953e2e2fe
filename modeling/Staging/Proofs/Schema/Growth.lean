import Staging.Proofs.Schema.Selection
import Staging.Proofs.Stage.Inference

/-!
# More records

Tallies only go up. What was in conflict stays in conflict and fields that had one column name still
have it, so further records never repair a schema; and where there is a schema for both, the columns
stay, with types that are at most made wider (`schema_grows`).
-/

namespace Staging.Schema

variable {field : String} {c : Counts} {values : List Json}

/-! ## Wider types -/

/-- A value whose kind has a say in the type of its column. -/
def isTyped (v : Json) : Bool := v.kind == .boolean || isNumber v || v.kind == .string

/-- What may become of the type selected for some values when there are more. -/
inductive Widens (values : List Json) : ColumnType → ColumnType → Prop
  | same (type : ColumnType) : Widens values type type
  | numeric : Widens values .bigint .numeric
  | varchar : Widens values .timestamptz .varchar
  | untyped (h : ∀ v ∈ values, isTyped v = false) (type : ColumnType) : Widens values .varchar type

/-! ## Selection from compatible tallies -/

/-- The type that compatible tallies call for. -/
def Counts.type (c : Counts) : ColumnType :=
  if 0 < c.boolean then .boolean
  else if 0 < c.number then (if 0 < c.floating then .numeric else .bigint)
  else if 0 < c.string ∧ c.dateTime = c.string ∧ c.nested = 0 then .timestamptz
  else .varchar

theorem selectType_of_compatible (hfield : field ≠ idField) (h : Compatible c) :
    selectType field c = .ok c.type := by
  rw [selectType, if_neg hfield]
  refine (if_neg ((compatible_iff c).mp h)).trans ?_
  unfold Counts.type
  split
  · rfl
  · split
    · rfl
    · split <;> rfl

theorem compatible_of_selectType (hfield : field ≠ idField) {type : ColumnType}
    (h : selectType field c = .ok type) : Compatible c := by
  by_contra hnot
  rw [compatible_iff, not_not] at hnot
  rw [selectType, if_neg hfield] at h
  cases (if_pos hnot).symm.trans h

theorem type_of_boolean (hpos : 0 < c.boolean) : c.type = .boolean := if_pos hpos

theorem type_of_number (h : Compatible c) (hpos : 0 < c.number) :
    c.type = if 0 < c.floating then .numeric else .bigint := by
  have hboolean : ¬0 < c.boolean := fun hb => by have := h.boolean hb; omega
  rw [Counts.type, if_neg hboolean, if_pos hpos]

theorem type_of_string (h : Compatible c) (hpos : 0 < c.string) :
    c.type = if c.dateTime = c.string ∧ c.nested = 0 then .timestamptz else .varchar := by
  have hboolean : ¬0 < c.boolean := fun hb => by have := h.boolean hb; omega
  have hnumber : ¬0 < c.number := fun hn => by have := h.number hn; omega
  rw [Counts.type, if_neg hboolean, if_neg hnumber]
  simp only [hpos, true_and]

theorem type_of_untyped (hboolean : ¬0 < c.boolean) (hnumber : ¬0 < c.number)
    (hstring : ¬0 < c.string) : c.type = .varchar := by
  rw [Counts.type, if_neg hboolean, if_neg hnumber, if_neg fun h => hstring h.1]

/-! ## Tallies of more values -/

theorem Tallies.grows {tally : Counts → Int} {kind : Json → Bool} (h : Tallies tally kind)
    (values more : List Json) :
    0 ≤ tally (.of values) ∧ tally (.of values) ≤ tally (.of (values ++ more)) := by
  rw [h.eq_countP, h.eq_countP, List.countP_append]
  omega

/-- Values that go together still do if there are fewer of them. -/
theorem Compatible.fewer {more : List Json} (h : Compatible (.of (values ++ more))) :
    Compatible (.of values) := by
  have hboolean := tallies_boolean.grows values more
  have hnumber := tallies_number.grows values more
  have hstring := tallies_string.grows values more
  have hnested := tallies_nested.grows values more
  constructor
  · intro hpos
    have := h.boolean (by omega)
    omega
  · intro hpos
    have := h.number (by omega)
    omega

theorem untyped_of_counts (hboolean : (Counts.of values).boolean ≤ 0)
    (hnumber : (Counts.of values).number ≤ 0) (hstring : (Counts.of values).string ≤ 0) :
    ∀ v ∈ values, isTyped v = false := by
  intro v hv
  have hv₁ : (v.kind == .boolean) = false := tallies_boolean.absent hboolean hv
  have hv₂ : isNumber v = false := tallies_number.absent hnumber hv
  have hv₃ : (v.kind == .string) = false := tallies_string.absent hstring hv
  rw [isTyped, hv₁, hv₂, hv₃]
  rfl

/-- The type is one that more values call for as well, or is made wider by them. -/
theorem widens_type {more : List Json} (h : Compatible (.of (values ++ more))) :
    Widens values (Counts.of values).type (Counts.of (values ++ more)).type := by
  have hboolean := tallies_boolean.grows values more
  have hnumber := tallies_number.grows values more
  have hfloating := tallies_floating.grows values more
  have hstring := tallies_string.grows values more
  have hnested := tallies_nested.grows values more
  have hother := tallies_otherString.grows values more
  by_cases hb : 0 < (Counts.of values).boolean
  · rw [type_of_boolean hb, type_of_boolean (by omega)]
    exact .same _
  by_cases hn : 0 < (Counts.of values).number
  · rw [type_of_number h.fewer hn, type_of_number h (by omega)]
    by_cases hf : 0 < (Counts.of values).floating
    · have hf' : 0 < (Counts.of (values ++ more)).floating := by omega
      rw [if_pos hf, if_pos hf']
      exact .same _
    · rw [if_neg hf]
      split
      · exact .numeric
      · exact .same _
  by_cases hs : 0 < (Counts.of values).string
  · rw [type_of_string h.fewer hs, type_of_string h (by omega)]
    by_cases ht : (Counts.of values).dateTime = (Counts.of values).string ∧
        (Counts.of values).nested = 0
    · rw [if_pos ht]
      split
      · exact .same _
      · exact .varchar
    · -- the string that is no time, or the nested value, is still there
      have ht' : ¬((Counts.of (values ++ more)).dateTime = (Counts.of (values ++ more)).string ∧
          (Counts.of (values ++ more)).nested = 0) := by omega
      rw [if_neg ht, if_neg ht']
      exact .same _
  · rw [type_of_untyped hb hn hs]
    exact .untyped (untyped_of_counts (by omega) (by omega) (by omega)) _

/-- Where a type can be selected for more values, one can for fewer. -/
theorem selectType_grows {more : List Json} {type' : ColumnType}
    (h : selectType field (.of (values ++ more)) = .ok type') :
    ∃ type, selectType field (.of values) = .ok type ∧ Widens values type type' := by
  by_cases hfield : field = idField
  · subst hfield
    obtain rfl := Except.ok.inj ((selectType_id _).symm.trans h)
    exact ⟨.id, selectType_id _, .same _⟩
  · have hmore := compatible_of_selectType hfield h
    have htype' := (selectType_of_compatible hfield hmore).symm.trans h
    obtain rfl := Except.ok.inj htype'
    exact ⟨_, selectType_of_compatible hfield hmore.fewer, widens_type hmore⟩

/-! ## Fields of more records -/

variable {t : Table} {records more : List Json}

theorem fieldValues_append (records more : List Json) (name : String) :
    fieldValues (records ++ more) name = fieldValues records name ++ fieldValues more name := by
  rw [fieldValues, List.flatMap_append, valuesOf, List.filterMap_append]
  rfl

theorem mem_observed_iff {name : String} : (name, c) ∈ (Statistics.of records).fields ↔
    name ∈ (Statistics.of records).fields.map Prod.fst ∧ .of (fieldValues records name) = c := by
  rw [mem_iff_counts (nodup_names_observed records), counts_observed]

theorem names_grow {name : String} (h : name ∈ (Statistics.of records).fields.map Prod.fst) :
    name ∈ (Statistics.of (records ++ more)).fields.map Prod.fst := by
  obtain ⟨r, hr, hname⟩ := mem_names_observed.mp h
  exact mem_names_observed.mpr ⟨r, List.mem_append_left more hr, hname⟩

theorem Faulty.perm {fields fields' : FieldCounts} (hperm : fields.Perm fields')
    (h : Faulty fields) : Faulty fields' := by
  have hnames := hperm.map Prod.fst
  cases h with
  | kinds hmem hkinds => exact .kinds (hperm.mem_iff.mp hmem) hkinds
  | reserved hmem hname => exact .reserved (hnames.mem_iff.mp hmem) hname
  | sameColumn hmem hother hne hname =>
      exact .sameColumn (hnames.mem_iff.mp hmem) (hnames.mem_iff.mp hother) hne hname

/-- A field in conflict stays in conflict, and names that are in the way of each other stay so. -/
theorem Faulty.grows (h : Faulty (Statistics.of records).fields) :
    Faulty (Statistics.of (records ++ more)).fields := by
  cases h with
  | @kinds field c conflict hmem hkinds =>
      obtain ⟨hname, rfl⟩ := mem_observed_iff.mp hmem
      cases hselect : selectType field (.of (fieldValues (records ++ more) field)) with
      | error conflict' => exact .kinds (mem_observed_iff.mpr ⟨names_grow hname, rfl⟩) hselect
      | ok type' =>
          rw [fieldValues_append] at hselect
          obtain ⟨type, htype, -⟩ := selectType_grows hselect
          cases htype.symm.trans hkinds
  | reserved hmem hname => exact .reserved (names_grow hmem) hname
  | sameColumn hmem hother hne hname =>
      exact .sameColumn (names_grow hmem) (names_grow hother) hne hname

theorem fault_iff_faulty {fields : FieldCounts} (hfields : (fields.map Prod.fst).Nodup) :
    (infer t fields).fault ≠ none ↔ Faulty fields := by
  have hperm := Json.sortMembers_perm fields
  have hverdict := infer_verdict t hfields
  constructor
  · intro hfault
    cases hinfer : infer t fields with
    | mk columns fault =>
        rw [hinfer] at hverdict hfault
        cases hverdict with
        | schema _ _ => exact absurd rfl hfault
        | fault hfaulty _ _ _ _ => exact hfaulty.perm hperm
  · intro hfaulty hnone
    cases hinfer : infer t fields with
    | mk columns fault =>
        rw [hinfer] at hverdict hnone
        cases hverdict with
        | schema hclear _ => exact hclear (hfaulty.perm hperm.symm)
        | fault _ _ _ _ _ => cases hnone

/-- A column of a schema is found again in that of more records, with the same names and a type that
is at most wider. -/
theorem column_grows {columns columns' : List Column}
    (h : infer t (Statistics.of records).fields = ⟨columns, none⟩)
    (h' : infer t (Statistics.of (records ++ more)).fields = ⟨columns', none⟩) {c : Column}
    (hc : c ∈ columns) : ∃ c' ∈ columns', c'.source = c.source ∧ c'.name = c.name ∧
      Widens (fieldValues records c.source) c.type c'.type := by
  have hfield := (exists_column_iff h c.source).mp ⟨c, hc, rfl⟩
  obtain ⟨c', hc', hsource⟩ := (exists_column_iff h' c.source).mpr (names_grow hfield)
  have hname : c'.name = c.name := by
    rw [(infer_named h').name_eq c' hc', (infer_named h).name_eq c hc, hsource]
  have htype := (infer_ok h (nodup_names_observed records)).2 c hc
  have htype' := (infer_ok h' (nodup_names_observed (records ++ more))).2 c' hc'
  rw [counts_observed] at htype htype'
  rw [hsource, fieldValues_append] at htype'
  obtain ⟨type, hselect, hwidens⟩ := selectType_grows htype'
  obtain rfl := Except.ok.inj (hselect.symm.trans htype)
  exact ⟨c', hc', hsource, hname, hwidens⟩

/-- Further records leave a fault a fault, and keep every column of a schema as long as there is one
at all. -/
theorem schema_grows (t : Table) (records more : List Json) :
    ((infer t (Statistics.of records).fields).fault ≠ none →
      (infer t (Statistics.of (records ++ more)).fields).fault ≠ none) ∧
    ∀ columns columns', infer t (Statistics.of records).fields = ⟨columns, none⟩ →
      infer t (Statistics.of (records ++ more)).fields = ⟨columns', none⟩ →
      ∀ c ∈ columns, ∃ c' ∈ columns', c'.source = c.source ∧ c'.name = c.name ∧
        Widens (fieldValues records c.source) c.type c'.type := by
  refine ⟨fun hfault => ?_, fun columns columns' h h' c hc => column_grows h h' hc⟩
  have hfaulty := (fault_iff_faulty (nodup_names_observed records)).mp hfault
  exact (fault_iff_faulty (nodup_names_observed (records ++ more))).mpr hfaulty.grows

/-- Notes whose fields have hardly shown what they hold. -/
def firstNotes : List Json := [
  .obj [("at", .str "2020-01-02T03:04:05"), ("dueDate", .null), ("n", .int 1)],
  .obj [("dueDate", .arr []), ("n", .null)]]

def laterNotes : List Json := [
  .obj [("at", .str "soon"), ("dueDate", .str "later"), ("n", .float .zero), ("ok", .bool true)]]

def notesTable : Table where
  name := "notes"
  sourcePath := "/notes"
  moduleName := "mod-notes"

def firstColumns : List Column := [
  ⟨"at", "at", .timestamptz⟩, ⟨"due_date", "dueDate", .varchar⟩, ⟨"n", "n", .bigint⟩]

def laterColumns : List Column := [
  ⟨"at", "at", .varchar⟩, ⟨"due_date", "dueDate", .varchar⟩, ⟨"n", "n", .numeric⟩,
  ⟨"ok", "ok", .boolean⟩]

theorem infer_firstNotes :
    infer notesTable (Statistics.of firstNotes).fields = ⟨firstColumns, none⟩ := by
  have hsorted : Json.sortMembers (Statistics.of firstNotes).fields
      = (Statistics.of firstNotes).fields := List.mergeSort_of_pairwise (by decide +kernel)
  rw [infer, hsorted]
  decide +kernel

theorem infer_laterNotes :
    infer notesTable (Statistics.of (firstNotes ++ laterNotes)).fields = ⟨laterColumns, none⟩ := by
  have hsorted : Json.sortMembers (Statistics.of (firstNotes ++ laterNotes)).fields
      = (Statistics.of (firstNotes ++ laterNotes)).fields :=
    List.mergeSort_of_pairwise (by decide +kernel)
  rw [infer, hsorted]
  decide +kernel

/-- Notes whose numbers are once no numbers. -/
def clashingNotes : List Json := [.obj [("n", .int 1)], .obj [("n", .bool true)]]

theorem firstNotes_grow :
    (infer notesTable (Statistics.of clashingNotes).fields).fault ≠ none ∧
    (infer notesTable (Statistics.of (clashingNotes ++ laterNotes)).fields).fault ≠ none ∧
    infer notesTable (Statistics.of firstNotes).fields = ⟨firstColumns, none⟩ ∧
    infer notesTable (Statistics.of (firstNotes ++ laterNotes)).fields = ⟨laterColumns, none⟩ ∧
    ∃ c' ∈ laterColumns, c'.source = "dueDate" ∧ c'.name = "due_date" ∧
      Widens (fieldValues firstNotes "dueDate") .varchar c'.type := by
  have hclash : (infer notesTable (Statistics.of clashingNotes).fields).fault ≠ none := by
    have hsorted : Json.sortMembers (Statistics.of clashingNotes).fields
        = (Statistics.of clashingNotes).fields := List.mergeSort_singleton _
    rw [infer, hsorted]
    decide +kernel
  refine ⟨hclash, (schema_grows notesTable clashingNotes laterNotes).1 hclash, infer_firstNotes,
    infer_laterNotes, ?_⟩
  exact (schema_grows notesTable firstNotes laterNotes).2 firstColumns laterColumns
    infer_firstNotes infer_laterNotes ⟨"due_date", "dueDate", .varchar⟩ (by decide)

end Staging.Schema
