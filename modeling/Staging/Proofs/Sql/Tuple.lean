import Staging.Proofs.Sql.Insert
import Staging.Proofs.Sql.Scan

/-!
# What a row says

The values of a row follow the columns of the loading table one by one. A scanner of the row finds
in each place what belongs there (`Encoder.Shows`), and the text of every literal is the text that
was stored.
-/

namespace Staging.Sql

open Schema

/-! ## Places -/

/-- The places of a row, and the columns of the loading table. -/
inductive Slot
  | id
  | field (c : Column)
  | document
  | tenant
  deriving DecidableEq, Repr

/-- The places in order. -/
def slots (t : Table) : List Slot :=
  .id :: ((t.columns.filter (·.type != .id)).map .field ++ [.document, .tenant])

/-- The declaration of a place's column. -/
def Definer.declaration (d : Definer) : Slot → String
  | .id => "id VARCHAR(36) NOT NULL"
  | .field c => Definer.quoted c.name ++ " " ++ c.type.sql
  | .document => documentColumn ++ " " ++ d.dialect.jsonType
  | .tenant => tenantColumn ++ " SMALLINT NOT NULL"

theorem Definer.declarations_eq (d : Definer) (t : Table) :
    d.declarations t = (slots t).map d.declaration := by
  simp [declarations, slots, declaration]

namespace Encoder

/-- What is written in a place. -/
def cell (e : Encoder) (record : Json) (id : String) : Slot → Except Failure Cell
  | .id => .ok ⟨e.dialect.literal id, none⟩
  | .field c => e.encodeValue c ((record.member? c.source).getD .null)
  | .document => .ok (e.encodeDocument record)
  | .tenant => .ok ⟨String.ofList (Json.intChars e.settings.tenantId), none⟩

theorem cells_eq (e : Encoder) (record : Json) (id : String) :
    e.cells record id = (slots e.table).map (e.cell record id) := by
  simp [cells, slots, cell, valueColumns]

theorem length_slots (e : Encoder) : (slots e.table).length = e.valueColumns.length + 3 := by
  simp [slots, valueColumns]

end Encoder

/-! ## Values -/

/-- The text of a value. -/
def Lexeme.text (d : Dialect) : Lexeme → String
  | .string content => d.literal (String.ofList content)
  | .word w => String.ofList w

/-- A text that is read as a value of that text; if it is a literal, then of the stored text. -/
structure Denotes (d : Dialect) (text stored : String) (l : Lexeme) : Prop where
  scans : Scans text l
  text_eq : l.text d = text
  content : ∀ content, l = .string content → content = stored.toList

theorem denotes_word {d : Dialect} {s stored : String} (hne : s.toList ≠ [])
    (hs : ∀ c ∈ s.toList, isWordChar c = true) : Denotes d s stored (.word s.toList) := by
  have hscans := scans_word hne hs
  rw [String.ofList_toList] at hscans
  exact ⟨hscans, String.ofList_toList, fun _ h => by cases h⟩

theorem denotes_literal (d : Dialect) (s : String) : Denotes d (d.literal s) s (.string s.toList) :=
  ⟨scans_literal d s, congrArg d.literal String.ofList_toList,
    fun _ h => (Lexeme.string.inj h).symm⟩

theorem denotes_null (d : Dialect) (stored : String) :
    Denotes d null stored (.word null.toList) :=
  denotes_word (by decide) (List.all_eq_true.mp (by decide))

theorem denotes_int (d : Dialect) (stored : String) (n : Int) :
    Denotes d (String.ofList (Json.intChars n)) stored (.word (Json.intChars n)) :=
  ⟨scans_int n, rfl, fun _ h => by cases h⟩

theorem denotes_double (d : Dialect) (stored : String) (x : Double) :
    Denotes d x.text stored (.word (x.chars .plain)) :=
  ⟨scans_double x, rfl, fun _ h => by cases h⟩

namespace Encoder

theorem encodeText_denotes (e : Encoder) (c : Column) (v : Json) :
    ∃ l, Denotes e.dialect (e.encodeText c v).text (storedText v) l := by
  rw [encodeText]
  split
  · exact ⟨_, denotes_null e.dialect (storedText v)⟩
  · exact ⟨_, denotes_literal e.dialect (storedText v)⟩

theorem encodeNumber_denotes (e : Encoder) (c : Column) (x : Double) (stored : String) :
    ∃ l, Denotes e.dialect (e.encodeNumber c x).text stored l := by
  have hzero : Denotes e.dialect "0" stored (.word "0".toList) :=
    denotes_word (by decide) (List.all_eq_true.mp (by decide))
  rw [encodeNumber]
  split
  · exact ⟨_, hzero⟩
  · exact ⟨_, denotes_double e.dialect stored x⟩

theorem truth_denotes (d : Dialect) (b : Bool) (stored : String) :
    ∃ l, Denotes d (if b then "TRUE" else "FALSE") stored l := by
  cases b
  · exact ⟨_, denotes_word (by decide) (List.all_eq_true.mp (by decide))⟩
  · exact ⟨_, denotes_word (by decide) (List.all_eq_true.mp (by decide))⟩

theorem encodeValue_denotes {e : Encoder} {c : Column} {v : Json} {cell : Cell}
    (h : e.encodeValue c v = .ok cell) :
    ∃ l, Denotes e.dialect cell.text (storedText v) l := by
  by_cases hv : v = .null
  · subst hv
    rw [encodeValue_null] at h
    obtain rfl := Except.ok.inj h
    exact ⟨_, denotes_null e.dialect _⟩
  by_cases hbigint : c.type = .bigint
  · rw [encodeValue_bigint hv hbigint] at h
    obtain ⟨n, -, rfl⟩ := Run.map_eq_ok.mp h
    exact ⟨_, denotes_int e.dialect _ n⟩
  by_cases hboolean : c.type = .boolean
  · rw [encodeValue_boolean hv hboolean] at h
    obtain rfl := Except.ok.inj h
    exact truth_denotes e.dialect v.isTruthy _
  by_cases hnumeric : c.type = .numeric
  · rw [encodeValue_numeric hv hnumeric] at h
    obtain ⟨x, -, rfl⟩ := Run.map_eq_ok.mp h
    exact encodeNumber_denotes e c x _
  · rw [encodeValue_text hv hbigint hboolean hnumeric] at h
    obtain rfl := Except.ok.inj h
    exact encodeText_denotes e c v

theorem encodeDocument_denotes (e : Encoder) (record : Json) :
    ∃ l, Scans (e.encodeDocument record).text l ∧
      l.text e.dialect = (e.encodeDocument record).text ∧
      (l = .string (record.render .pretty).toList ∨ l = .string record.compact.toList ∨
        l = .word null.toList) := by
  have hpretty := denotes_literal e.dialect (record.render .pretty)
  have hcompact := denotes_literal e.dialect record.compact
  have hnull := denotes_null e.dialect ""
  rw [encodeDocument]
  simp only
  split
  · exact ⟨_, hpretty.scans, hpretty.text_eq, .inl rfl⟩
  · split
    · exact ⟨_, hcompact.scans, hcompact.text_eq, .inr (.inl rfl)⟩
    · exact ⟨_, hnull.scans, hnull.text_eq, .inr (.inr rfl)⟩

/-! ## Rows -/

/-- What a record has in a place: its identifier, the literal of a column's value, its document in
either layout or null, and the tenant. A literal of text holds the text that was stored. -/
def Shows (e : Encoder) (record : Json) : Slot → Lexeme → Prop
  | .id, l => ∃ id, recordId? record = some id ∧ l = .string id.toList
  | .field c, l => ∃ cell, e.encodeValue c ((record.member? c.source).getD .null) = .ok cell ∧
      l.text e.dialect = cell.text ∧ ∀ content, l = .string content →
        content = (storedText ((record.member? c.source).getD .null)).toList
  | .document, l => l.text e.dialect = (e.encodeDocument record).text ∧
      (l = .string (record.render .pretty).toList ∨ l = .string record.compact.toList ∨
        l = .word null.toList)
  | .tenant, l => l = .word (Json.intChars e.settings.tenantId)

theorem cell_shows {e : Encoder} {record : Json} {id : String} (hid : recordId? record = some id)
    {slot : Slot} {text : String} (h : ∃ c, e.cell record id slot = .ok c ∧ c.text = text) :
    ∃ l, Scans text l ∧ e.Shows record slot l := by
  obtain ⟨c, hc, rfl⟩ := h
  cases slot with
  | id =>
      obtain rfl := Except.ok.inj hc
      exact ⟨_, scans_literal e.dialect id, id, hid, rfl⟩
  | field column =>
      obtain ⟨l, hl⟩ := encodeValue_denotes hc
      exact ⟨l, hl.scans, c, hc, hl.text_eq, hl.content⟩
  | document =>
      obtain rfl := Except.ok.inj hc
      exact encodeDocument_denotes e record
  | tenant =>
      obtain rfl := Except.ok.inj hc
      exact ⟨_, scans_int _, rfl⟩

/-- Related lists with something in between for every pair have a list in between. -/
theorem forall₂_between {α β γ : Type} {R : α → β → Prop} {S : β → γ → Prop} {T : α → γ → Prop}
    {as : List α} {bs : List β} (h : List.Forall₂ R as bs)
    (hbetween : ∀ a b, R a b → ∃ c, S b c ∧ T a c) :
    ∃ cs, List.Forall₂ S bs cs ∧ List.Forall₂ T as cs := by
  induction h with
  | nil => exact ⟨[], .nil, .nil⟩
  | @cons a b as bs hab _ ih =>
      obtain ⟨c, hb, ha⟩ := hbetween a b hab
      obtain ⟨cs, hbs, has⟩ := ih
      exact ⟨c :: cs, .cons hb hbs, .cons ha has⟩

/-- A row is read as one tuple that shows the record. -/
theorem rowText_scans {e : Encoder} {record : Json} {text : String}
    (h : e.rowText record = .ok text) :
    ∃ tuple, ScansTuple text tuple ∧ List.Forall₂ (e.Shows record) (slots e.table) tuple := by
  obtain ⟨id, texts, hid, hcells, rfl⟩ := rowText_ok.mp h
  rw [cells_eq, List.forall₂_map_left_iff] at hcells
  obtain ⟨ls, hscans, hshows⟩ := forall₂_between hcells fun _ _ => cell_shows hid
  refine ⟨ls, scanTuple_tuple hscans ?_, hshows⟩
  rintro rfl
  cases hcells

/-! ## Statements -/

/-- Whatever the records hold, their rows are read as one tuple each, which shows its record place
by place in the order of the declared columns; and a statement of these rows is read as just those
tuples. -/
theorem rows_scanned (e : Encoder) (w : Inserter) {records : List Json} {texts : List String}
    (h : List.Forall₂ e.Encodes records texts) :
    (∀ d : Definer, d.declarations e.table = (slots e.table).map d.declaration) ∧
    (slots e.table).length = e.valueColumns.length + 3 ∧
    ∃ tuples : List (List Lexeme),
      List.Forall₂ (fun text tuple => scanTuple text.toList = some (tuple, [])) texts tuples ∧
      List.Forall₂ (fun record tuple => List.Forall₂ (e.Shows record) (slots e.table) tuple)
        records tuples ∧
      ∃ body, (texts.foldl Batch.append (w.begin {})).text ++ Batch.terminator = w.lead ++ body ∧
        scanBody body.toList = some tuples := by
  refine ⟨fun d => d.declarations_eq e.table, e.length_slots, ?_⟩
  obtain ⟨tuples, hscans, hshows⟩ := forall₂_between h fun record text hrow =>
    rowText_scans (encodes_iff.mp hrow)
  refine ⟨tuples, hscans.imp fun text tuple ht => ?_, hshows, ?_⟩
  · have hread := ht []
    rwa [List.append_nil] at hread
  · have hbatch := (Batch.holds_start {} w.lead).foldl texts
    rw [List.nil_append] at hbatch
    exact ⟨",".intercalate texts ++ Batch.terminator,
      by rw [← String.append_assoc, ← hbatch.text]; rfl, scanBody_texts hscans⟩

/-- Rows of a table with two columns besides the identifier. -/
def noteEncoder : Encoder where
  table :=
    { name := "notes", sourcePath := "/notes", moduleName := "mod-notes"
      columns := [⟨"id", "id", .id⟩, ⟨"text", "text", .varchar⟩, ⟨"n", "n", .bigint⟩] }
  dialect := .postgres
  settings := {}

/-- A record whose text tries to end its literal. -/
def awkwardNote : Json := .obj [("id", .str "a\x27b"), ("text", .str "x\\\x27,("), ("n", .int 3)]

def awkwardRow : String :=
  "(E\x27a\x27\x27b\x27,E\x27x\\\\\x27\x27,(\x27,3,E\x27\x7b\n    \"id\": \"a\x27\x27b\",\n"
    ++ "    \"text\": \"x\\\\\\\\\x27\x27,(\",\n    \"n\": 3\n\x7d\x27,1)"

theorem awkward_scanned : List.Forall₂ noteEncoder.Encodes [awkwardNote] [awkwardRow] ∧
    ∃ tuples : List (List Lexeme),
      List.Forall₂ (fun text tuple => scanTuple text.toList = some (tuple, [])) [awkwardRow] tuples ∧
      List.Forall₂ (fun record tuple =>
        List.Forall₂ (noteEncoder.Shows record) (slots noteEncoder.table) tuple)
          [awkwardNote] tuples :=
  have hrows : List.Forall₂ noteEncoder.Encodes [awkwardNote] [awkwardRow] :=
    .cons (encodes_iff.mpr rfl) .nil
  have ⟨_, _, tuples, hscans, hshows, _⟩ :=
    rows_scanned noteEncoder ⟨⟨"postgresql", false, none⟩, "notes", "zzz___notes___", 0⟩ hrows
  ⟨hrows, tuples, hscans, hshows⟩

end Encoder

end Staging.Sql
