import Staging.Proofs.Number.Nearest
import Staging.Proofs.Page.Document
import Staging.Proofs.Schema.Inference
import Staging.Proofs.Sql.Row
import Staging.Redaction

/-!
# Rows of records that the schema was inferred from

Every value of these records fits its column, so none of them fails: its literal is the one that the
type calls for, or the substitute (`encodeValue_fits`). What is left to fail is a record without an
identifier (`rows_of_inferred`).
-/

namespace Staging.Sql

open Schema

/-! ## Integers as doubles -/

/-- What a case split does with an integer. The cases are variables, as a double that stood in one
of them would be evaluated. -/
theorem match_int {α : Type} (null : α) (bool : Bool → α) (int : Int → α) (float : Double → α)
    (str : String → α) (arr : List Json → α) (obj : Members → α) {v : Json} {n : Int} :
    v = .int n → (match v with
      | .null => null
      | .bool b => bool b
      | .int n => int n
      | .float x => float x
      | .str s => str s
      | .arr items => arr items
      | .obj members => obj members) = int n := by
  rintro rfl
  rfl

theorem toDouble_int {v : Json} {n : Int} {x : Double} (hv : v = .int n)
    (hx : Double.ofInt? n = some x) : v.toDouble = .ok x := by
  unfold Json.toDouble
  refine (match_int _ _ _ _ _ _ _ hv).trans ?_
  rw [hx]

namespace Encoder

/-! ## Literals by type -/

/-- The literal of a text, or null if it is too long. -/
def StoresText (e : Encoder) (c : Column) (s : String) (cell : Cell) : Prop :=
  if ((e.dialect.literal s).length : Int) < e.settings.maxStringLength
  then cell = ⟨e.dialect.literal s, none⟩
  else cell = ⟨null, some (.stringLength c.name (e.dialect.literal s).length)⟩

/-- The literal of a number, or zero if it is out of range. -/
def StoresNumber (e : Encoder) (c : Column) (x : Double) (cell : Cell) : Prop :=
  if x.exceeds e.settings.numericLimit then cell = ⟨"0", some (.numericRange c.name x)⟩
  else cell = ⟨x.text, none⟩

/-- What a value becomes in a column of each type. -/
inductive Stores (e : Encoder) (c : Column) : Json → Cell → Prop
  | null : Stores e c .null ⟨"NULL", none⟩
  | bigint (hc : c.type = .bigint) (n : Int) : Stores e c (.int n) ⟨toString n, none⟩
  | yes (hc : c.type = .boolean) : Stores e c (.bool true) ⟨"TRUE", none⟩
  | no (hc : c.type = .boolean) : Stores e c (.bool false) ⟨"FALSE", none⟩
  | integer (hc : c.type = .numeric) {n : Int} {x : Double} {cell : Cell}
    (hx : Double.ofInt? n = some x) (hcell : e.StoresNumber c x cell) : Stores e c (.int n) cell
  | float (hc : c.type = .numeric) {x : Double} {cell : Cell} (hcell : e.StoresNumber c x cell) :
    Stores e c (.float x) cell
  | timestamptz (hc : c.type = .timestamptz) {s : String} {cell : Cell}
    (hs : looksLikeDateTime s = true) (hcell : e.StoresText c s cell) : Stores e c (.str s) cell
  | string (hc : c.type = .varchar) {s : String} {cell : Cell} (hcell : e.StoresText c s cell) :
    Stores e c (.str s) cell
  | array (hc : c.type = .varchar) {items : List Json} {cell : Cell}
    (hcell : e.StoresText c (Json.arr items).compact cell) : Stores e c (.arr items) cell
  | object (hc : c.type = .varchar) {members : Members} {cell : Cell}
    (hcell : e.StoresText c (Json.obj members).compact cell) : Stores e c (.obj members) cell

variable {e : Encoder} {c : Column} {v : Json}

theorem ofList_intChars (n : Int) : String.ofList (Json.intChars n) = toString n := by
  cases n with
  | ofNat m => rfl
  | negSucc m =>
      rw [Json.intChars, if_pos (Int.negSucc_lt_zero m), String.ofList_append]
      rfl

theorem encodeText_stores (e : Encoder) (c : Column) (v : Json) :
    e.StoresText c (storedText v) (e.encodeText c v) := by
  rw [StoresText, encodeText]
  split
  · rename_i h
    rw [if_neg (by omega)]
  · rename_i h
    rw [if_pos (by omega)]

theorem encodeNumber_stores (e : Encoder) (c : Column) (x : Double) :
    e.StoresNumber c x (e.encodeNumber c x) := by
  rw [StoresNumber, encodeNumber]
  split <;> rfl

theorem encodeValue_asText (hv : v ≠ .null) (hc : c.type = .timestamptz ∨ c.type = .varchar) :
    e.encodeValue c v = .ok (e.encodeText c v) := by
  refine encodeValue_text hv ?_ ?_ ?_ <;>
    · intro htype
      rw [htype] at hc
      rcases hc with h | h <;> cases h

theorem encodeValue_number {x : Double} (hc : c.type = .numeric) (hv : v ≠ .null)
    (hx : v.toDouble = .ok x) : e.encodeValue c v = .ok (e.encodeNumber c x) := by
  rw [encodeValue_numeric hv hc, hx]
  rfl

/-- A value that fits the type of its column is encoded as that type calls for. -/
theorem encodeValue_fits (hfits : Fits c.type v) (hid : c.type ≠ .id)
    (hsmall : ∀ n, v = .int n → Json.isSmall n = true) :
    ∃ cell, e.encodeValue c v = .ok cell ∧ e.Stores c v cell := by
  generalize htype : c.type = type at hfits
  cases hfits with
  | null => exact ⟨_, encodeValue_null, .null⟩
  | id v => exact absurd htype hid
  | boolean b =>
      refine ⟨_, encodeValue_boolean Json.noConfusion htype, ?_⟩
      cases b
      · exact .no htype
      · exact .yes htype
  | bigint n =>
      refine ⟨⟨toString n, none⟩, ?_, .bigint htype n⟩
      rw [encodeValue_bigint Json.noConfusion htype, ← ofList_intChars]
      rfl
  | integer n =>
      obtain ⟨x, hx⟩ := Double.ofInt?_of_le (Json.natAbs_of_isSmall (hsmall n rfl))
      exact ⟨_, encodeValue_number htype Json.noConfusion (toDouble_int rfl hx),
        .integer htype hx (encodeNumber_stores e c x)⟩
  | float x =>
      have hdouble : (Json.float x).toDouble = .ok x := rfl
      exact ⟨_, encodeValue_number htype Json.noConfusion hdouble,
        .float htype (encodeNumber_stores e c x)⟩
  | @timestamptz s h =>
      exact ⟨_, encodeValue_asText Json.noConfusion (.inl htype),
        .timestamptz htype h (encodeText_stores e c (.str s))⟩
  | string s =>
      exact ⟨_, encodeValue_asText Json.noConfusion (.inr htype),
        .string htype (encodeText_stores e c (.str s))⟩
  | array items =>
      exact ⟨_, encodeValue_asText Json.noConfusion (.inr htype),
        .array htype (encodeText_stores e c (.arr items))⟩
  | object members =>
      exact ⟨_, encodeValue_asText Json.noConfusion (.inr htype),
        .object htype (encodeText_stores e c (.obj members))⟩

/-! ## Canonical records -/

theorem fits_canonical {type : ColumnType} (h : Fits type v) : Fits type v.canonical := by
  cases h with
  | id v => exact .id _
  | array items => exact .array _
  | object members => exact .object _
  | null => exact .null _
  | boolean b => exact .boolean b
  | bigint n => exact .bigint n
  | integer n => exact .integer n
  | float x => exact .float x
  | timestamptz h => exact .timestamptz h
  | string s => exact .string s

theorem canonical_eq_int {n : Int} (h : v.canonical = .int n) : v = .int n := by
  cases v with
  | arr items => cases h
  | obj members => cases h
  | _ => exact h

theorem canonical_eq_null : v.canonical = .null ↔ v = .null := by
  cases v <;> simp [Json.canonical]

variable {record : Json}

/-- A delivered record has the members of its canonical form, each in canonical form. -/
theorem member?_apply (h : Page.Delivered record) (name : String) :
    (Redaction.apply none record).member? name = (record.member? name).map Json.canonical := by
  obtain ⟨members, rfl, hnames⟩ := h.object
  exact Json.member?_canonical hnames name

theorem recordId?_eq_none : recordId? record = none ↔
    (record.member? idField).getD .null = .null := by
  rw [recordId?]
  cases record.member? idField with
  | none => simp
  | some v => cases v <;> simp

theorem recordId?_apply (h : Page.Delivered record) :
    recordId? (Redaction.apply none record) = none ↔
      (record.member? idField).getD .null = .null := by
  rw [recordId?_eq_none, member?_apply h]
  cases record.member? idField with
  | none => simp
  | some v => exact canonical_eq_null

/-! ## Rows -/

section

variable {e : Encoder} {t : Table} {records : List Json} {record : Json}

/-- The schema of these records is that of the encoder's table. -/
structure InferredFrom (e : Encoder) (t : Table) (records : List Json) : Prop where
  delivered : ∀ r ∈ records, Page.Delivered r
  columns : infer t (Statistics.of records).fields = ⟨e.table.columns, none⟩

theorem InferredFrom.count_source (h : InferredFrom e t records) (hrecord : record ∈ records)
    {name : String} {v : Json} (hv : record.member? name = some v) :
    (e.table.columns.map (·.source)).count name = 1 := by
  obtain ⟨hperm, -⟩ := infer_ok h.columns (nodup_names_observed records)
  obtain ⟨members, rfl, -⟩ := (h.delivered record hrecord).object
  rw [hperm.count_eq]
  refine List.count_eq_one_of_mem (nodup_names_observed records) ?_
  exact mem_names_observed.mpr
    ⟨_, hrecord, List.mem_map_of_mem (Members.mem_of_lookup hv)⟩

/-- The value of a field fits the type of its column. -/
theorem InferredFrom.fits (h : InferredFrom e t records) (hrecord : record ∈ records) {c : Column}
    (hc : c ∈ e.table.columns) {v : Json} (hv : record.member? c.source = some v) :
    Fits c.type v ∧ ∀ n, v = .int n → Json.isSmall n = true := by
  obtain ⟨-, htypes⟩ := infer_ok h.columns (nodup_names_observed records)
  have hdelivered := h.delivered record hrecord
  have htype := htypes c hc
  rw [counts_observed] at htype
  obtain ⟨members, rfl, -⟩ := hdelivered.object
  have hmem : (c.source, v) ∈ members := Members.mem_of_lookup hv
  refine ⟨fits_of_selectType htype (mem_fieldValues hrecord hmem), ?_⟩
  rintro n rfl
  have hrange := hdelivered.range
  rw [Json.inRange] at hrange
  have hvalue := Page.inRange_of_member hrange _ hmem
  rwa [Json.inRange] at hvalue

theorem InferredFrom.encodes (h : InferredFrom e t records) (hrecord : record ∈ records)
    {c : Column} (hc : c ∈ e.table.columns) (hid : c.type ≠ .id) :
    ∃ cell, e.encodeValue c
        (((Redaction.apply none record).member? c.source).getD .null) = .ok cell ∧
      e.Stores c (((Redaction.apply none record).member? c.source).getD .null) cell := by
  rw [member?_apply (h.delivered record hrecord)]
  cases hv : record.member? c.source with
  | none => exact ⟨_, encodeValue_null, .null⟩
  | some v =>
      obtain ⟨hfits, hsmall⟩ := h.fits hrecord hc hv
      exact encodeValue_fits (fits_canonical hfits) hid fun n hn => hsmall n (canonical_eq_int hn)

/-- A record with an identifier has a row if each of its columns takes the value. -/
theorem rowText_of_columns {id : String} (hid : recordId? record = some id)
    (h : ∀ c ∈ e.table.columns, c.type ≠ .id →
      ∃ cell, e.encodeValue c ((record.member? c.source).getD .null) = .ok cell) :
    ∃ text, e.rowText record = .ok text := by
  have hcells : ∀ cell ∈ e.cells record id, ∃ c, cell = .ok c := by
    intro cell hcell
    rw [cells] at hcell
    rcases List.mem_append.mp hcell with hcell | hcell
    · rcases List.mem_cons.mp hcell with rfl | hcell
      · exact ⟨_, rfl⟩
      · obtain ⟨c, hc, rfl⟩ := List.mem_map.mp hcell
        obtain ⟨hcolumn, htype⟩ := List.mem_filter.mp hc
        exact h c hcolumn (bne_iff_ne.mp htype)
    · rcases List.mem_cons.mp hcell with rfl | hcell
      · exact ⟨_, rfl⟩
      · exact ⟨_, List.mem_singleton.mp hcell⟩
  obtain ⟨texts, htexts⟩ := gathered_of_forall hcells
  refine ⟨tuple texts, ?_⟩
  rw [rowText, hid]
  simp only [encodeCells, htexts]
  rfl

theorem InferredFrom.row (h : InferredFrom e t records) (hrecord : record ∈ records) {id : String}
    (hid : recordId? (Redaction.apply none record) = some id) :
    ∃ text, e.rowText (Redaction.apply none record) = .ok text := by
  refine rowText_of_columns hid ?_
  intro c hc htype
  obtain ⟨cell, hcell, -⟩ := h.encodes hrecord hc htype
  exact ⟨cell, hcell⟩

/-- Records that a schema was inferred from fit it: every field has one column, every value is
encoded as the type of its column calls for, and the only failure there can be is that of a record
without an identifier. -/
theorem rows_of_inferred (hrecords : ∀ r ∈ records, Page.Delivered r)
    (hinfer : infer t (Statistics.of records).fields = ⟨e.table.columns, none⟩)
    (hrecord : record ∈ records) :
    (∀ name v, record.member? name = some v →
      (e.table.columns.map (·.source)).count name = 1) ∧
    (∀ c ∈ e.table.columns, c.type ≠ .id → ∃ cell,
      e.encodeValue c (((Redaction.apply none record).member? c.source).getD .null) = .ok cell ∧
      e.Stores c (((Redaction.apply none record).member? c.source).getD .null) cell) ∧
    ∀ (session : Session Unit) (failure : Failure),
      ((e.encodeRow (Redaction.apply none record)).run session).1 = .error failure ↔
        (record.member? idField).getD .null = .null ∧ failure = .missingId e.table.name := by
  have h : InferredFrom e t records := ⟨hrecords, hinfer⟩
  refine ⟨fun name v hv => h.count_source hrecord hv, fun c hc hid => h.encodes hrecord hc hid,
    fun session failure => ?_⟩
  rw [encodeRow_outcome, ← recordId?_apply (hrecords record hrecord)]
  cases hid : recordId? (Redaction.apply none record) with
  | none =>
      rw [rowText, hid]
      exact ⟨fun heq => ⟨rfl, (Except.error.inj heq).symm⟩, fun heq => congrArg _ heq.2.symm⟩
  | some id =>
      obtain ⟨text, htext⟩ := h.row hrecord hid
      rw [htext]
      constructor
      · intro heq
        cases heq
      · rintro ⟨hnone, -⟩
        cases hnone

end

/-! ## A record among others -/

/-- A record with another kind of number than the one before, and with other fields. -/
def laterRecord : Json :=
  .obj [("n", .float (.ofDecimal false 15 (-1))), ("id", .int 2), ("ok", .null), ("tags", .arr [])]

def mixedRecords : List Json := [
  .obj [("id", .str "a"), ("at", .str "2020-01-02T03:04:05Z"), ("n", .int 7), ("ok", .bool true)],
  laterRecord]

def mixedColumns : List Column := [
  ⟨"id", "id", .id⟩, ⟨"at", "at", .timestamptz⟩, ⟨"n", "n", .numeric⟩, ⟨"ok", "ok", .boolean⟩,
  ⟨"tags", "tags", .varchar⟩]

def mixedEncoder : Encoder where
  table :=
    { name := "notes", sourcePath := "/notes", moduleName := "mod-notes", columns := mixedColumns }
  dialect := .redshift
  settings := {}

theorem mixedRecords_delivered : ∀ r ∈ mixedRecords, Page.Delivered r := by
  intro r hr
  simp only [mixedRecords, List.mem_cons, List.not_mem_nil, or_false] at hr
  rcases hr with rfl | rfl
  · exact ⟨⟨_, rfl, by decide⟩, by decide +kernel⟩
  · exact ⟨⟨_, rfl, by decide⟩, by decide +kernel⟩

theorem infer_mixedRecords :
    infer mixedEncoder.table (Statistics.of mixedRecords).fields
      = ⟨mixedEncoder.table.columns, none⟩ := by
  have hsorted : Json.sortMembers (Statistics.of mixedRecords).fields
      = (Statistics.of mixedRecords).fields := List.mergeSort_of_pairwise (by decide +kernel)
  rw [infer, hsorted]
  decide +kernel

theorem laterRecord_row :
    (mixedColumns.map (·.source)).count "tags" = 1 ∧
    (∃ cell, mixedEncoder.encodeValue ⟨"n", "n", .numeric⟩
        (((Redaction.apply none laterRecord).member? "n").getD .null) = .ok cell ∧
      mixedEncoder.Stores ⟨"n", "n", .numeric⟩
        (((Redaction.apply none laterRecord).member? "n").getD .null) cell) ∧
    ∀ (session : Session Unit) (failure : Failure),
      ((mixedEncoder.encodeRow (Redaction.apply none laterRecord)).run session).1 = .error failure ↔
        (laterRecord.member? idField).getD .null = .null ∧ failure = .missingId "notes" :=
  have hlater : laterRecord ∈ mixedRecords := List.mem_cons_of_mem _ List.mem_cons_self
  have ⟨hone, hcells, hrow⟩ :=
    rows_of_inferred mixedRecords_delivered infer_mixedRecords hlater
  ⟨hone "tags" (.arr []) rfl, hcells ⟨"n", "n", .numeric⟩ (by decide) (by decide), hrow⟩

end Encoder

end Staging.Sql
