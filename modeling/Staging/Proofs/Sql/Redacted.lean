import Staging.Proofs.Redaction
import Staging.Proofs.Sql.Fitting
import Staging.Proofs.Sql.Scan

/-!
# Rows of redacted records

A column whose type was inferred from records takes their values as they are stored, redacted or
not: what stands for a hidden value is of its kind (`shown_cases`). So the one failure that a row
can end in is that of a record without an identifier, under any policy
(`InferredFrom.rowText_error`).

That a literal is there does not mean that it is of the column's type. A time is hidden as a string
is, by the empty one, and that is no time; all other hidden values are stored as their types call
for (`rows_of_redacted`).
-/

namespace Staging

namespace Redaction

open Json Schema

variable {policy : Option Policy} {name : String} {v : Json}

/-- What a processed record shows of the member of this name. -/
def shown (policy : Option Policy) (name : String) (v : Json) : Json :=
  match policy with
  | none => v.canonical
  | some p => p.redacted (stepDown "" (memberToken name)) v.canonical

/-- A processed record has the members of the record. -/
theorem member?_apply {record : Json} (h : Page.Delivered record) (policy : Option Policy)
    (name : String) :
    (apply policy record).member? name = (record.member? name).map (shown policy name) := by
  cases policy with
  | none => exact Sql.Encoder.member?_apply h name
  | some p =>
      obtain ⟨members, rfl, hnames⟩ := h.object
      have hredacted : ((members.map fun m => p.redactedMember "" (m.1, m.2.canonical)).map
          Prod.fst).Nodup := by
        rw [List.map_map]
        exact hnames
      have hsorted :=
        sortMembers_perm (members.map fun m => p.redactedMember "" (m.1, m.2.canonical))
      rw [apply_some, redacted_canonical_obj]
      show (sortMembers _).lookup name = (members.lookup name).map (shown (some p) name)
      rw [← Members.lookup_perm hsorted.symm hredacted]
      exact Members.lookup_map (fun name v => shown (some p) name v) members name

/-! ## Single values -/

/-- Containers stay containers, and a scalar stays as it is or becomes the neutral value. -/
theorem shown_cases (policy : Option Policy) (name : String) (v : Json) :
    (isNested v = true ∧ isNested (shown policy name v) = true) ∨
      isNested v = false ∧ (shown policy name v = v ∨ shown policy name v = neutral v) := by
  cases hv : isNested v with
  | true =>
      refine .inl ⟨rfl, ?_⟩
      unfold shown
      cases policy with
      | none => cases v <;> first | rfl | cases hv
      | some p =>
          cases v with
          | obj members =>
              simp only [redacted_canonical_obj]
              rfl
          | arr items => rfl
          | _ => cases hv
  | false =>
      refine .inr ⟨rfl, ?_⟩
      unfold shown
      cases policy with
      | none => exact .inl (canonical_scalar hv)
      | some p =>
          simp only [canonical_scalar hv, redacted_scalar hv]
          unfold Policy.redact
          split
          · exact .inr rfl
          · exact .inl rfl

theorem shown_eq_null : shown policy name v = .null ↔ v = .null := by
  rcases shown_cases policy name v with ⟨hv, hw⟩ | ⟨-, heq | heq⟩
  · constructor <;> intro h
    · rw [h] at hw
      cases hw
    · rw [h] at hv
      cases hv
  · rw [heq]
  · rw [heq]
    cases v <;> simp [neutral]

/-- Only numbers show as integers, and one that is not shown itself is zero. -/
theorem shown_eq_int {n : Int} (h : shown policy name v = .int n) : v = .int n ∨ n = 0 := by
  rcases shown_cases policy name v with ⟨-, hw⟩ | ⟨-, heq | heq⟩
  · rw [h] at hw
    cases hw
  · exact .inl (heq.symm.trans h)
  · rw [heq] at h
    cases v <;> simp_all [neutral]

theorem neutral_fits {type : ColumnType} (h : Fits type v) :
    Fits type (neutral v) ∨ type = .timestamptz ∧ neutral v = .str "" := by
  cases h with
  | null => exact .inl (.null _)
  | id v => exact .inl (.id _)
  | boolean b => exact .inl (.boolean false)
  | bigint n => exact .inl (.bigint 0)
  | integer n => exact .inl (.integer 0)
  | float x => exact .inl (.integer 0)
  | timestamptz h => exact .inr ⟨rfl, rfl⟩
  | string s => exact .inl (.string "")
  | array items => exact .inl (.array items)
  | object members => exact .inl (.object members)

theorem fits_nested {type : ColumnType} {w : Json} (h : Fits type v) (hv : isNested v = true)
    (hw : isNested w = true) : Fits type w := by
  have hvarchar : Fits .varchar w := by
    cases w with
    | arr items => exact .array items
    | obj members => exact .object members
    | _ => cases hw
  cases h with
  | id v => exact .id w
  | array items => exact hvarchar
  | object members => exact hvarchar
  | _ => cases hv

/-- What is shown fits where the value fits, but for the empty text of a hidden time. -/
theorem shown_fits {type : ColumnType} (h : Fits type v) (policy : Option Policy) (name : String) :
    Fits type (shown policy name v) ∨ type = .timestamptz ∧ shown policy name v = .str "" := by
  rcases shown_cases policy name v with ⟨hv, hw⟩ | ⟨-, heq | heq⟩
  · exact .inl (fits_nested h hv hw)
  · rw [heq]
    exact .inl h
  · rw [heq]
    exact neutral_fits h

theorem shown_eq_empty {s : String} (hs : s ≠ "") : shown policy name (.str s) = .str "" ↔
    ∃ p, policy = some p ∧ p.classifier (stepDown "" (memberToken name)) = true := by
  have hsame : (Json.str s).canonical = .str s := rfl
  unfold shown
  cases policy with
  | none => simp [hsame, hs]
  | some p =>
      simp only [hsame, redacted_scalar (show isNested (.str s) = false from rfl)]
      unfold Policy.redact
      split
      · rename_i hhidden
        simp [neutral, hhidden]
      · rename_i hshown
        simp [hs, hshown]

/-- The value of a column in a record is a time that the policy hides. -/
def HidesTime (policy : Option Policy) (c : Column) (record : Json) : Prop :=
  c.type = .timestamptz ∧ ∃ p s, policy = some p ∧ record.member? c.source = some (.str s) ∧
    p.classifier (stepDown "" (memberToken c.source)) = true

theorem ne_empty_of_looksLikeDateTime {s : String} (h : looksLikeDateTime s = true) : s ≠ "" := by
  rintro rfl
  exact absurd h (by decide)

/-- A hidden time is the one value for which something is shown that does not fit. -/
theorem hidesTime_iff {policy : Option Policy} {c : Column} {record : Json}
    (hv : record.member? c.source = some v) (hfits : Fits c.type v) : HidesTime policy c record ↔
      c.type = .timestamptz ∧ shown policy c.source v = .str "" := by
  unfold HidesTime
  refine and_congr_right fun htype => ?_
  rw [htype] at hfits
  rw [hv]
  cases hfits with
  | null =>
      have hshown : shown policy c.source .null = .null := shown_eq_null.mpr rfl
      simp [hshown]
  | @timestamptz s hs =>
      rw [shown_eq_empty (ne_empty_of_looksLikeDateTime hs)]
      simp

end Redaction

namespace Sql.Encoder

open Schema Redaction

variable {e : Encoder} {t : Table} {records : List Json} {record : Json}

theorem recordId?_shown (h : Page.Delivered record) (policy : Option Policy) :
    recordId? (apply policy record) = none ↔ (record.member? idField).getD .null = .null := by
  rw [recordId?_eq_none, Redaction.member?_apply h policy]
  cases record.member? idField with
  | none => simp
  | some v => exact shown_eq_null

/-- A column takes what is shown of the records that its type was inferred from, as its type calls
for unless a time is hidden. -/
theorem InferredFrom.encodes_shown (h : InferredFrom e t records) (hrecord : record ∈ records)
    (policy : Option Policy) {c : Column} (hc : c ∈ e.table.columns) (hid : c.type ≠ .id) :
    ∃ cell, e.encodeValue c (((apply policy record).member? c.source).getD .null) = .ok cell ∧
      (¬HidesTime policy c record →
        e.Stores c (((apply policy record).member? c.source).getD .null) cell) ∧
      (HidesTime policy c record → e.StoresText c "" cell) := by
  rw [Redaction.member?_apply (h.delivered record hrecord) policy]
  cases hv : record.member? c.source with
  | none =>
      refine ⟨_, encodeValue_null, fun _ => .null, ?_⟩
      rintro ⟨-, p, s, -, hmember, -⟩
      cases hv.symm.trans hmember
  | some v =>
      obtain ⟨hfits, hsmall⟩ := h.fits hrecord hc hv
      rw [Option.map_some, Option.getD_some, hidesTime_iff hv hfits]
      by_cases hempty : c.type = .timestamptz ∧ shown policy c.source v = .str ""
      · have hcell : e.encodeValue c (shown policy c.source v)
            = .ok (e.encodeText c (.str "")) := by
          rw [hempty.2]
          exact encodeValue_asText Json.noConfusion (.inl hempty.1)
        exact ⟨_, hcell, fun hshown => absurd hempty hshown,
          fun _ => encodeText_stores e c (.str "")⟩
      · have hshown := (shown_fits hfits policy c.source).resolve_right hempty
        have hsmallShown : ∀ n, shown policy c.source v = .int n → Json.isSmall n = true := by
          intro n hn
          rcases shown_eq_int hn with hvalue | rfl
          · exact hsmall n hvalue
          · decide
        obtain ⟨cell, hcell, hstores⟩ := encodeValue_fits (e := e) hshown hid hsmallShown
        exact ⟨cell, hcell, fun _ => hstores, fun hhidden => absurd hhidden hempty⟩

theorem InferredFrom.row_shown (h : InferredFrom e t records) (hrecord : record ∈ records)
    {policy : Option Policy} {id : String} (hid : recordId? (apply policy record) = some id) :
    ∃ text, e.rowText (apply policy record) = .ok text := by
  refine rowText_of_columns hid fun c hc htype => ?_
  obtain ⟨cell, hcell, -⟩ := h.encodes_shown hrecord policy hc htype
  exact ⟨cell, hcell⟩

/-- A record among those that the schema was inferred from has a row, or no identifier. -/
theorem InferredFrom.rowText_error (h : InferredFrom e t records) (hrecord : record ∈ records)
    {policy : Option Policy} {failure : Failure}
    (herror : e.rowText (apply policy record) = .error failure) :
    failure = .missingId e.table.name ∧ (record.member? idField).getD .null = .null := by
  cases hid : recordId? (apply policy record) with
  | none =>
      rw [rowText, hid] at herror
      exact ⟨(Except.error.inj herror).symm,
        (recordId?_shown (h.delivered record hrecord) policy).mp hid⟩
  | some id =>
      obtain ⟨text, htext⟩ := h.row_shown hrecord hid
      rw [htext] at herror
      cases herror

/-- A record that has an identifier when it was redacted has a row, and every value is stored as the
type of its column calls for. The exception are hidden times: what is stored is the empty text. -/
theorem rows_of_redacted (hrecords : ∀ r ∈ records, Page.Delivered r)
    (hinfer : infer t (Statistics.of records).fields = ⟨e.table.columns, none⟩)
    (hrecord : record ∈ records) (policy : Option Policy) {id : String}
    (hid : recordId? (apply policy record) = some id) :
    (∀ session : Session Unit,
      ∃ text, ((e.encodeRow (apply policy record)).run session).1 = .ok text) ∧
    ∀ c ∈ e.table.columns, c.type ≠ .id → ∃ cell,
      e.encodeValue c (((apply policy record).member? c.source).getD .null) = .ok cell ∧
      (¬HidesTime policy c record →
        e.Stores c (((apply policy record).member? c.source).getD .null) cell) ∧
      (HidesTime policy c record → e.StoresText c "" cell) := by
  have h : InferredFrom e t records := ⟨hrecords, hinfer⟩
  refine ⟨fun session => ?_, fun c hc htype => h.encodes_shown hrecord policy hc htype⟩
  rw [encodeRow_outcome]
  exact h.row_shown hrecord hid

/-- The first of the mixed records. -/
def earlierRecord : Json :=
  .obj [("id", .str "a"), ("at", .str "2020-01-02T03:04:05Z"), ("n", .int 7), ("ok", .bool true)]

/-- Everything in mixed records is hidden but their identifiers. -/
def mixedPolicy : Policy := ⟨["notes"], fun pointer => pointer != "/id"⟩

theorem earlierRecord_row :
    recordId? (apply (some mixedPolicy) earlierRecord) = some "a" ∧
    (∀ session : Session Unit, ∃ text,
      ((mixedEncoder.encodeRow (apply (some mixedPolicy) earlierRecord)).run session).1
        = .ok text) ∧
    (∃ cell, mixedEncoder.encodeValue ⟨"n", "n", .numeric⟩
        (((apply (some mixedPolicy) earlierRecord).member? "n").getD .null) = .ok cell ∧
      mixedEncoder.Stores ⟨"n", "n", .numeric⟩
        (((apply (some mixedPolicy) earlierRecord).member? "n").getD .null) cell) ∧
    ∃ cell, mixedEncoder.encodeValue ⟨"at", "at", .timestamptz⟩
        (((apply (some mixedPolicy) earlierRecord).member? "at").getD .null) = .ok cell ∧
      mixedEncoder.StoresText ⟨"at", "at", .timestamptz⟩ "" cell := by
  have hmem : earlierRecord ∈ mixedRecords := List.mem_cons_self
  have hid : recordId? (apply (some mixedPolicy) earlierRecord) = some "a" := by
    rw [recordId?, Redaction.member?_apply (mixedRecords_delivered _ hmem)]
    decide +kernel
  obtain ⟨hrow, hcells⟩ :=
    rows_of_redacted mixedRecords_delivered infer_mixedRecords hmem (some mixedPolicy) hid
  obtain ⟨n, hn, hstores, -⟩ := hcells ⟨"n", "n", .numeric⟩ (by decide) (by decide)
  obtain ⟨time, htime, -, hempty⟩ := hcells ⟨"at", "at", .timestamptz⟩ (by decide) (by decide)
  refine ⟨hid, hrow, ⟨n, hn, hstores ?_⟩, time, htime, hempty ?_⟩
  · rintro ⟨htype, -⟩
    cases htype
  · exact ⟨rfl, mixedPolicy, "2020-01-02T03:04:05Z", rfl, rfl, by decide +kernel⟩

/-- A user whose name is a time. -/
def timedUser : Json := .obj [("id", .str "a"), ("username", .str "2020-01-02T03:04:05")]

/-- The schema of that user. -/
def timedEncoder : Encoder where
  table :=
    { name := "user_users", sourcePath := "/users", moduleName := "mod-users",
      columns := [⟨"id", "id", .id⟩, ⟨"username", "username", .timestamptz⟩] }
  dialect := .postgres
  settings := {}

/-- The names of users are hidden, among others. -/
def userPolicy : Policy := { tables := ["user_users"] }

theorem timedUser_delivered : ∀ r ∈ [timedUser], Page.Delivered r := by
  rintro r hr
  obtain rfl := List.mem_singleton.mp hr
  exact ⟨⟨_, rfl, by decide⟩, by decide +kernel⟩

theorem infer_timedUser : infer timedEncoder.table (Statistics.of [timedUser]).fields
    = ⟨timedEncoder.table.columns, none⟩ := by
  have hsorted : Json.sortMembers (Statistics.of [timedUser]).fields
      = (Statistics.of [timedUser]).fields := List.mergeSort_of_pairwise (by decide +kernel)
  rw [infer, hsorted]
  decide +kernel

theorem recordId?_timedUser : recordId? (apply (some userPolicy) timedUser) = some "a" := by
  rw [recordId?, Redaction.member?_apply (timedUser_delivered _ List.mem_cons_self)]
  decide +kernel

/-- What is stored for a hidden time is neither null nor the literal of a time. -/
theorem timedUser_unfit : (∀ r ∈ [timedUser], Page.Delivered r) ∧
    infer timedEncoder.table (Statistics.of [timedUser]).fields
      = ⟨timedEncoder.table.columns, none⟩ ∧
    recordId? (apply (some userPolicy) timedUser) = some "a" ∧
    ∃ cell, timedEncoder.encodeValue ⟨"username", "username", .timestamptz⟩
        (((apply (some userPolicy) timedUser).member? "username").getD .null) = .ok cell ∧
      cell.text ≠ "NULL" ∧
      ∀ s, looksLikeDateTime s = true → cell.text ≠ timedEncoder.dialect.literal s := by
  have hcell : timedEncoder.encodeValue ⟨"username", "username", .timestamptz⟩
      (((apply (some userPolicy) timedUser).member? "username").getD .null)
        = .ok ⟨timedEncoder.dialect.literal "", none⟩ := by
    rw [Redaction.member?_apply (timedUser_delivered _ List.mem_cons_self)]
    decide +kernel
  refine ⟨timedUser_delivered, infer_timedUser, recordId?_timedUser, _, hcell, by decide, ?_⟩
  intro s hs hsame
  exact ne_empty_of_looksLikeDateTime hs (literal_injective _ hsame).symm

end Sql.Encoder

end Staging
