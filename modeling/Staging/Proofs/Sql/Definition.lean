import Staging.Proofs.Schema.Columns
import Staging.Proofs.Schema.Naming
import Staging.Proofs.Sql.Tuple

/-!
# What a definition declares

The names of the columns as the database reads them in the statements that define a loading table.
The scanner knows nothing of how they were written: a name is a word, or stands between double
quotes of which two stand for one, and a type goes on to a comma or parenthesis outside of it.

The statements say what was inferred for all fields without a double quote in their names
(`definition_scanned`), and declare a column twice just where a field other than the identifier has
the identifier's column name (`declared_names_nodup_iff`).
-/

namespace Staging.Sql

open Schema

/-! ## The scanner -/

/-- Reads a quoted name from after its opening quote on: the name, and the rest. -/
def scanQuoted : List Char → Option (List Char × List Char)
  | [] => none
  | c :: rest =>
    if c = '\x22' then
      match rest with
      | '\x22' :: more => (scanQuoted more).map fun (s, tail) => ('\x22' :: s, tail)
      | _ => some ([], rest)
    else (scanQuoted rest).map fun (s, tail) => (c :: s, tail)

/-- The characters of names without quotes that stand for themselves. -/
def isNameChar (c : Char) : Bool := c.isLower || c.isDigit || c == '_'

/-- Reads a name, which may not be empty. -/
def scanName (s : List Char) : Option (List Char × List Char) :=
  let read := match s with
    | '\x22' :: rest => scanQuoted rest
    | _ => some (s.takeWhile isNameChar, s.dropWhile isNameChar)
  read.filter fun (name, _) => !name.isEmpty

def skipBlank (s : List Char) : List Char := s.dropWhile fun c => c = ' ' || c = '\n'

/-- What follows a type, `depth` parentheses deep in it. -/
def skipType : Nat → List Char → List Char
  | _, [] => []
  | depth, c :: rest =>
    if depth = 0 ∧ (c = ',' ∨ c = ')') then c :: rest
    else skipType (if c = '(' then depth + 1 else if c = ')' then depth - 1 else depth) rest

/-- Reads declarations up to the closing parenthesis: the names, and the rest. Each takes one of the
steps. -/
def scanColumns : Nat → List Char → Option (List (List Char) × List Char)
  | 0, _ => none
  | steps + 1, s =>
    match scanName (skipBlank s) with
    | none => none
    | some (name, rest) =>
      match skipType 0 rest with
      | ',' :: more => (scanColumns steps more).map fun (names, tail) => (name :: names, tail)
      | ')' :: tail => some ([name], tail)
      | _ => none

/-- What stands before the declarations. -/
def Definer.createLead (d : Definer) (t : Table) : String :=
  "CREATE TABLE " ++ d.loadingTable t ++ " ("

/-- The statement that creates the table is read as declaring columns of these names. -/
def Definer.Declares (d : Definer) (t : Table) (names : List String) : Prop :=
  ∃ body, d.create t = d.createLead t ++ body ∧ scanColumns body.toList.length body.toList
    = some (names.map (·.toList), (d.dialect.distribution "id" "id" ++ ";").toList)

/-- What stands before the name in a statement that indexes a column. -/
def Definer.indexLead (d : Definer) (t : Table) : String :=
  "CREATE INDEX ON\n    " ++ d.loadingTable t ++ "\n    ("

/-- A statement is read as indexing the column of this name. -/
def Definer.IndexesColumn (d : Definer) (t : Table) (sql name : String) : Prop :=
  ∃ body, sql = d.indexLead t ++ body ∧ scanName body.toList = some (name.toList, ");".toList)

/-! ## Quoted names -/

/-- A quote that is part of a name is written twice. -/
def doubled (name : List Char) : List Char :=
  name.flatMap fun c => if c = '\x22' then ['\x22', '\x22'] else [c]

theorem doubled_cons (c : Char) (name : List Char) :
    doubled (c :: name) = (if c = '\x22' then ['\x22', '\x22'] else [c]) ++ doubled name := rfl

theorem length_doubled (name : List Char) :
    (doubled name).length = name.length + name.count '\x22' := by
  induction name with
  | nil => rfl
  | cons c name ih =>
      rw [doubled_cons, List.length_append, ih, List.length_cons]
      by_cases hc : c = '\x22'
      · subst hc
        simp
        omega
      · simp [hc]
        omega

theorem doubled_eq_self_iff {name : List Char} : doubled name = name ↔ '\x22' ∉ name := by
  constructor
  · intro h
    have hlength := congrArg List.length h
    rw [length_doubled] at hlength
    exact List.count_eq_zero.mp (by omega)
  · intro h
    induction name with
    | nil => rfl
    | cons c name ih =>
        rw [List.mem_cons, not_or] at h
        rw [doubled_cons, if_neg (Ne.symm h.1), ih h.2]
        rfl

/-- What is read is what was doubled, up to a quote that is not one of two. -/
theorem scanQuoted_doubled {tail : List Char} (htail : tail.head? ≠ some '\x22')
    (name : List Char) : scanQuoted (doubled name ++ '\x22' :: tail) = some (name, tail) := by
  induction name with
  | nil =>
      show scanQuoted ('\x22' :: tail) = _
      rw [scanQuoted.eq_def]
      simp only [if_true]
      split
      · exact absurd rfl htail
      · rfl
  | cons c name ih =>
      rw [doubled_cons, List.append_assoc, scanQuoted.eq_def]
      by_cases hc : c = '\x22'
      · simp [hc, ih]
      · simp [hc, ih]

/-- Reading undoes nothing but the doubling. -/
theorem scanQuoted_ok {s name tail : List Char} (h : scanQuoted s = some (name, tail)) :
    s = doubled name ++ '\x22' :: tail := by
  fun_induction scanQuoted s generalizing name tail with
  | case1 => cases h
  | case2 more ih =>
      obtain ⟨⟨name, tail⟩, hread, heq⟩ := Option.map_eq_some_iff.mp h
      obtain ⟨rfl, rfl⟩ := Prod.mk.inj heq
      rw [ih hread]
      rfl
  | case3 rest =>
      obtain ⟨rfl, rfl⟩ := Prod.mk.inj (Option.some.inj h)
      rfl
  | case4 c rest hc ih =>
      obtain ⟨⟨name, tail⟩, hread, heq⟩ := Option.map_eq_some_iff.mp h
      obtain ⟨rfl, rfl⟩ := Prod.mk.inj heq
      rw [ih hread, doubled_cons, if_neg hc]
      rfl

/-- A name between quotes is read as the name it was, unless a quote in it ends it too early or
passes for half of one. -/
theorem scanName_quoted_iff {name tail : List Char} (hne : name ≠ [])
    (htail : tail.head? ≠ some '\x22') :
    scanName ('\x22' :: (name ++ '\x22' :: tail)) = some (name, tail) ↔ '\x22' ∉ name := by
  constructor
  · intro h
    have hread := scanQuoted_ok (Option.filter_eq_some_iff.mp h).1
    exact doubled_eq_self_iff.mp (List.append_cancel_right hread).symm
  · intro h
    have hread := scanQuoted_doubled htail name
    rw [doubled_eq_self_iff.mpr h] at hread
    unfold scanName
    simp [hread, hne]

theorem scanName_word {word : List Char} (hne : word ≠ [])
    (hword : ∀ c ∈ word, isNameChar c = true) (rest : List Char) :
    scanName (word ++ ' ' :: rest) = some (word, ' ' :: rest) := by
  have htake : (word ++ ' ' :: rest).takeWhile isNameChar = word := by
    rw [List.takeWhile_append_of_pos hword]
    exact List.append_nil word
  have hdrop : (word ++ ' ' :: rest).dropWhile isNameChar = ' ' :: rest := by
    rw [List.dropWhile_append_of_pos hword]
    rfl
  unfold scanName
  split
  · rename_i heq
    obtain ⟨c, word, rfl⟩ := List.exists_cons_of_ne_nil hne
    obtain ⟨rfl, -⟩ := List.cons.inj heq
    exact absurd (hword _ List.mem_cons_self) (by decide)
  · simp [htake, hdrop, hne]

/-! ## Declarations -/

/-- The name of a place's column. -/
def Slot.name : Slot → String
  | .id => "id"
  | .field c => c.name
  | .document => documentColumn
  | .tenant => tenantColumn

/-- The name as it is written. -/
def Slot.identifier : Slot → String
  | .field c => Definer.quoted c.name
  | slot => slot.name

/-- The type of a place's column. -/
def Definer.columnType (d : Definer) : Slot → String
  | .id => "VARCHAR(36) NOT NULL"
  | .field c => c.type.sql
  | .document => d.dialect.jsonType
  | .tenant => "SMALLINT NOT NULL"

theorem Definer.declaration_eq (d : Definer) (slot : Slot) :
    d.declaration slot = slot.identifier ++ " " ++ d.columnType slot := by
  cases slot <;> rfl

/-- A column that can be named between quotes as it is. -/
def Legible (c : Column) : Prop := c.name.toList ≠ [] ∧ '\x22' ∉ c.name.toList

theorem quoted_toList (name : String) :
    (Definer.quoted name).toList = '\x22' :: (name.toList ++ ['\x22']) := by
  unfold Definer.quoted
  rw [String.toList_append, String.toList_append]
  rfl

theorem scanName_identifier {slot : Slot} (h : ∀ c, slot = .field c → Legible c)
    (rest : List Char) :
    scanName (slot.identifier.toList ++ ' ' :: rest) = some (slot.name.toList, ' ' :: rest) := by
  cases slot with
  | id => exact scanName_word (by decide) (List.all_eq_true.mp (by decide)) rest
  | field c =>
      obtain ⟨hne, hquote⟩ := h c rfl
      show scanName ((Definer.quoted c.name).toList ++ ' ' :: rest) = _
      rw [quoted_toList, List.cons_append, List.append_assoc]
      refine (scanName_quoted_iff hne ?_).mpr hquote
      rintro ⟨⟩
  | document => exact scanName_word (by decide) (List.all_eq_true.mp (by decide)) rest
  | tenant => exact scanName_word (by decide) (List.all_eq_true.mp (by decide)) rest

theorem skipBlank_identifier (slot : Slot) (rest : List Char) :
    skipBlank ('\n' :: (("    " ++ slot.identifier).toList ++ rest))
      = slot.identifier.toList ++ rest := by
  cases slot <;>
    simp [skipBlank, Slot.identifier, Slot.name, Definer.quoted, documentColumn, tenantColumn]

/-- A type leaves the scanner where it was, outside of all parentheses. -/
theorem skipType_columnType (d : Definer) (slot : Slot) (rest : List Char) :
    skipType 0 (' ' :: ((d.columnType slot).toList ++ rest)) = skipType 0 rest := by
  obtain ⟨dialect, settings⟩ := d
  cases slot with
  | id => simp [skipType, Definer.columnType]
  | field c =>
      obtain ⟨name, source, type⟩ := c
      cases type <;> simp [skipType, Definer.columnType, ColumnType.sql]
  | document => cases dialect <;> simp [skipType, Definer.columnType, Dialect.jsonType]
  | tenant => simp [skipType, Definer.columnType]

/-- A text on a line of its own that is read as the declaration of a column, whatever follows. -/
def ScansColumn (text : String) (name : List Char) : Prop :=
  ∀ rest, ∃ after, scanName (skipBlank ('\n' :: (text.toList ++ rest))) = some (name, after) ∧
    skipType 0 after = skipType 0 rest

theorem scansColumn_declaration (d : Definer) {slot : Slot}
    (h : ∀ c, slot = .field c → Legible c) :
    ScansColumn ("    " ++ d.declaration slot) slot.name.toList := by
  intro rest
  refine ⟨_, ?_, skipType_columnType d slot rest⟩
  rw [d.declaration_eq, ← String.append_assoc, ← String.append_assoc, String.toList_append,
    String.toList_append, List.append_assoc, List.append_assoc, skipBlank_identifier]
  exact scanName_identifier h _

theorem scanColumns_last {steps : Nat} {s name after rest : List Char}
    (hname : scanName (skipBlank s) = some (name, after)) (htype : skipType 0 after = ')' :: rest) :
    scanColumns (steps + 1) s = some ([name], rest) := by
  rw [scanColumns, hname]
  simp only [htype]

theorem scanColumns_more {steps : Nat} {s name after more rest : List Char}
    {names : List (List Char)} (hname : scanName (skipBlank s) = some (name, after))
    (htype : skipType 0 after = ',' :: more) (hmore : scanColumns steps more = some (names, rest)) :
    scanColumns (steps + 1) s = some (name :: names, rest) := by
  rw [scanColumns, hname]
  simp only [htype, hmore, Option.map_some]

theorem scanColumns_texts {texts : List String} {names : List (List Char)}
    (h : List.Forall₂ ScansColumn texts names) (hne : texts ≠ []) {steps : Nat}
    (hsteps : texts.length ≤ steps) (rest : List Char) :
    scanColumns steps ('\n' :: ((",\n".intercalate texts).toList ++ '\n' :: ')' :: rest))
      = some (names, rest) := by
  induction h generalizing steps with
  | nil => exact absurd rfl hne
  | @cons text name texts names hfirst hmore ih =>
      obtain ⟨steps, rfl⟩ : ∃ k, steps = k + 1 :=
        ⟨steps - 1, by rw [List.length_cons] at hsteps; omega⟩
      cases hmore with
      | nil =>
          obtain ⟨after, hname, htype⟩ := hfirst ('\n' :: ')' :: rest)
          rw [String.intercalate_singleton]
          exact scanColumns_last hname (htype.trans (by simp [skipType]))
      | @cons text' name' texts names hsecond hmore =>
          have hread := ih (List.cons_ne_nil _ _) (Nat.le_of_succ_le_succ hsteps)
          have hlead : ",\n".toList = [',', '\n'] := rfl
          obtain ⟨after, hname, htype⟩ := hfirst
            (',' :: '\n' :: ((",\n".intercalate (text' :: texts)).toList ++ '\n' :: ')' :: rest))
          rw [String.intercalate_cons_cons, String.toList_append, String.toList_append,
            List.append_assoc, List.append_assoc, hlead]
          exact scanColumns_more hname (htype.trans (by simp [skipType])) hread

theorem scanColumns_body {texts : List String} {names : List (List Char)}
    (h : List.Forall₂ ScansColumn texts names) (hne : texts ≠ []) {body tail : String}
    (hbody : body = "\n" ++ (",\n".intercalate texts ++ ("\n)" ++ tail))) :
    scanColumns body.toList.length body.toList = some (names, tail.toList) := by
  have hlist : body.toList
      = '\n' :: ((",\n".intercalate texts).toList ++ '\n' :: ')' :: tail.toList) := by
    rw [hbody, String.toList_append, String.toList_append, String.toList_append]
    rfl
  have hsteps : texts.length ≤ (",\n".intercalate texts).toList.length + 1 :=
    length_le_intercalate (by decide) texts
  rw [hlist]
  refine scanColumns_texts h hne ?_ tail.toList
  rw [List.length_cons, List.length_append]
  omega

theorem Definer.create_eq (d : Definer) (t : Table) :
    d.create t = d.createLead t
      ++ ("\n" ++ (",\n".intercalate ((d.declarations t).map ("    " ++ ·))
      ++ ("\n)" ++ (d.dialect.distribution "id" "id" ++ ";")))) := by
  have hopen : " (\n" = " (" ++ "\n" := rfl
  unfold Definer.create Definer.createLead
  rw [hopen]
  simp only [String.append_assoc]

/-- Where all columns can be named as they are, just the columns that were meant are declared. -/
theorem declares_slots (d : Definer) {t : Table} (h : ∀ c ∈ t.columns, Legible c) :
    d.Declares t ((slots t).map Slot.name) := by
  have hscans : List.Forall₂ ScansColumn ((d.declarations t).map ("    " ++ ·))
      (((slots t).map Slot.name).map (·.toList)) := by
    rw [d.declarations_eq, List.map_map, List.map_map, List.forall₂_map_left_iff,
      List.forall₂_map_right_iff, List.forall₂_same]
    intro slot hslot
    refine scansColumn_declaration d ?_
    rintro c rfl
    have hc : c ∈ t.columns.filter (·.type != .id) := by simpa [slots] using hslot
    exact h c (List.mem_of_mem_filter hc)
  have hne : (d.declarations t).map ("    " ++ ·) ≠ [] := by simp [Definer.declarations]
  exact ⟨_, d.create_eq t, scanColumns_body hscans hne rfl⟩

/-! ## Indexes -/

/-- The columns that get an index of their own. -/
def Definer.indexed (d : Definer) (columns : List Column) : List Column :=
  if d.dialect.hasSecondaryIndexes then columns.filter (·.type != .id) else []

theorem mem_of_mem_indexed {d : Definer} {columns : List Column} {c : Column}
    (h : c ∈ d.indexed columns) : c ∈ columns := by
  unfold Definer.indexed at h
  split at h
  · exact List.mem_of_mem_filter h
  · cases h

/-- The statements that index one column. -/
def Definer.indexesOf (d : Definer) (t : Table) (c : Column) : List String :=
  if c.type = .id then [d.primaryKey t]
  else if d.dialect.hasSecondaryIndexes && c.name != documentColumn then [d.columnIndex t c]
  else []

/-- Columns in no other's place are indexed one by one, if the dialect does that. -/
theorem flatMap_indexesOf (d : Definer) (t : Table) {columns : List Column}
    (hid : ∀ c ∈ columns, c.type ≠ .id) (hdocument : ∀ c ∈ columns, c.name ≠ documentColumn) :
    columns.flatMap (d.indexesOf t) = (d.indexed columns).map (d.columnIndex t) := by
  induction columns with
  | nil => cases hdialect : d.dialect.hasSecondaryIndexes <;> simp [Definer.indexed, hdialect]
  | cons c columns ih =>
      rw [List.forall_mem_cons] at hid hdocument
      rw [List.flatMap_cons, ih hid.2 hdocument.2]
      cases hdialect : d.dialect.hasSecondaryIndexes <;>
        simp [Definer.indexed, Definer.indexesOf, hdialect, hid.1, hdocument.1]

/-- With the identifier in front and no column in the document's place, the primary key comes first
and the other columns follow in their order. -/
theorem Definer.indexes_eq (d : Definer) {t : Table} (hfirst : ∀ c ∈ t.columns.tail, c.type ≠ .id)
    (hdocument : ∀ c ∈ t.columns, c.name ≠ documentColumn) :
    d.indexes t = d.primaryKey t :: (d.indexed t.columns).map (d.columnIndex t) := by
  show (if t.idColumn?.isNone then [d.primaryKey t] else [])
    ++ t.columns.flatMap (d.indexesOf t) = _
  unfold Table.idColumn?
  cases hcolumns : t.columns with
  | nil => cases hdialect : d.dialect.hasSecondaryIndexes <;> simp [Definer.indexed, hdialect]
  | cons c columns =>
      rw [hcolumns, List.tail_cons] at hfirst
      rw [hcolumns] at hdocument
      have hnone : columns.find? (·.type == .id) = none := by simpa using hfirst
      by_cases hid : c.type = .id
      · have hrest := flatMap_indexesOf d t hfirst (List.forall_mem_cons.mp hdocument).2
        have hindexed : d.indexed (c :: columns) = d.indexed columns := by
          simp [Definer.indexed, hid]
        rw [List.flatMap_cons, hrest, hindexed]
        simp [Definer.indexesOf, hid]
      · have hall := flatMap_indexesOf d t (List.forall_mem_cons.mpr ⟨hid, hfirst⟩) hdocument
        rw [hall, List.find?_cons_of_neg (by simpa using hid), hnone]
        rfl

theorem indexes_columnIndex (d : Definer) (t : Table) {c : Column} (h : Legible c) :
    d.IndexesColumn t (d.columnIndex t c) c.name := by
  refine ⟨Definer.quoted c.name ++ ");", ?_, ?_⟩
  · unfold Definer.columnIndex Definer.indexLead
    simp only [String.append_assoc]
  · rw [String.toList_append, quoted_toList, List.cons_append, List.append_assoc]
    refine (scanName_quoted_iff h.1 ?_).mpr h.2
    rintro ⟨⟩

/-! ## Inferred columns -/

section

variable {t : Table} {fields : FieldCounts} {columns : List Column}

/-- Of an inferred column, whose field has a name, it is quotes in that name that count. -/
theorem legible_of_inferred (h : infer t fields = ⟨columns, none⟩)
    (hempty : "" ∉ fields.map Prod.fst) {c : Column} (hc : c ∈ columns) :
    c.name.toList ≠ [] ∧ ('\x22' ∉ c.name.toList ↔ '\x22' ∉ c.source.toList) := by
  have hsource : c.source ≠ "" := by
    intro heq
    exact hempty (heq ▸ (exists_column_iff h c.source).mp ⟨c, hc, rfl⟩)
  rw [(infer_named h).name_eq c hc, quote_mem_columnName_iff]
  exact ⟨columnName_toList_ne_nil hsource, Iff.rfl⟩

theorem indexes_of_inferred (h : infer t fields = ⟨columns, none⟩) (d : Definer) :
    d.indexes { t with columns := columns }
      = d.primaryKey t :: (d.indexed columns).map (d.columnIndex t) := by
  refine d.indexes_eq (infer_id_first h) ?_
  intro c hc hname
  have hfree := (infer_named h).free c hc
  rw [hname] at hfree
  exact hfree (by decide)

/-- A table before its columns are known. -/
def plainTable : Table := { name := "notes", sourcePath := "/notes", moduleName := "mod-notes" }

def plainColumns : List Column :=
  [⟨"id", "id", .id⟩, ⟨"barcode_id", "barcodeID", .varchar⟩]

def plainDefiner : Definer := ⟨.postgres, {}⟩

/-- The tallies of a field with one string in one record. -/
def oneString : Counts := { records := 1, string := 1 }

def plainFields : FieldCounts := [("barcodeID", oneString), ("id", oneString)]

theorem infer_plainFields : infer plainTable plainFields = ⟨plainColumns, none⟩ := by
  have hsorted : Json.sortMembers plainFields = [("id", oneString), ("barcodeID", oneString)] := by
    rw [plainFields, Json.sortMembers_eq_of_perm (.swap _ _ _) (by decide)]
    exact List.mergeSort_of_pairwise (by decide +kernel)
  rw [infer, hsorted]
  decide +kernel

/-- A field's column can be told from the text between its quotes just if the field has no double
quote. If none has, the definition declares the inferred columns with the identifier, the document
and the tenant around them, and indexes the identifier and then each of the others. -/
theorem definition_scanned (d : Definer) (h : infer t fields = ⟨columns, none⟩)
    (hempty : "" ∉ fields.map Prod.fst) :
    (∀ c ∈ columns, ∀ tail : List Char, tail.head? ≠ some '\x22' →
      (scanName ((Definer.quoted c.name).toList ++ tail) = some (c.name.toList, tail)
        ↔ '\x22' ∉ c.source.toList)) ∧
    ((∀ field ∈ fields.map Prod.fst, '\x22' ∉ field.toList) →
      d.Declares { t with columns := columns }
        ((slots { t with columns := columns }).map Slot.name) ∧
      ∃ statements, d.indexes { t with columns := columns } = d.primaryKey t :: statements ∧
        List.Forall₂ (fun sql c => d.IndexesColumn t sql c.name) statements
          (d.indexed columns)) := by
  refine ⟨?_, ?_⟩
  · intro c hc tail htail
    obtain ⟨hne, hquote⟩ := legible_of_inferred h hempty hc
    rw [quoted_toList, List.cons_append, List.append_assoc, ← hquote]
    exact scanName_quoted_iff hne htail
  · intro hquotes
    have hlegible : ∀ c ∈ columns, Legible c := by
      intro c hc
      obtain ⟨hne, hquote⟩ := legible_of_inferred h hempty hc
      have hfield := (exists_column_iff h c.source).mp ⟨c, hc, rfl⟩
      exact ⟨hne, hquote.mpr (hquotes c.source hfield)⟩
    refine ⟨declares_slots d hlegible, _, indexes_of_inferred h d, ?_⟩
    rw [List.forall₂_map_left_iff, List.forall₂_same]
    intro c hc
    exact indexes_columnIndex d t (hlegible c (mem_of_mem_indexed hc))

theorem plainFields_scanned :
    "" ∉ plainFields.map Prod.fst ∧
    plainDefiner.Declares { plainTable with columns := plainColumns }
      ["id", "barcode_id", "data", "tenant_id"] ∧
    ∃ statements, plainDefiner.indexes { plainTable with columns := plainColumns }
        = plainDefiner.primaryKey plainTable :: statements ∧
      List.Forall₂ (fun sql (c : Column) => plainDefiner.IndexesColumn plainTable sql c.name)
        statements [⟨"barcode_id", "barcodeID", .varchar⟩] := by
  have hempty : "" ∉ plainFields.map Prod.fst := by decide
  obtain ⟨-, hread⟩ := definition_scanned plainDefiner infer_plainFields hempty
  exact ⟨hempty, hread (by decide +kernel)⟩

/-- Two quotes in a field's name, and the statement declares a column that no record has. -/
theorem quotes_declare_another :
    infer plainTable [("a\" INT, \"b", oneString)]
      = ⟨[⟨"a\" int, \"b", "a\" INT, \"b", .varchar⟩], none⟩ ∧
    scanName ((Definer.quoted "a\" int, \"b").toList ++ [')'])
      = some (['a'], " int, \"b\")".toList) ∧
    plainDefiner.Declares
      { plainTable with columns := [⟨"a\" int, \"b", "a\" INT, \"b", .varchar⟩] }
      ["id", "a", "b", "data", "tenant_id"] := by
  refine ⟨?_, by decide +kernel, _, Definer.create_eq _ _, by decide +kernel⟩
  rw [infer, Json.sortMembers, List.mergeSort_singleton]
  decide +kernel

/-- Columns apart from each other, the document and the tenant are declared under different names,
if none of them but the identifier's is named like that. -/
theorem slot_names_nodup_iff (hnodup : (t.columns.map (·.name)).Nodup)
    (hfixed : ∀ c ∈ t.columns, c.name ≠ documentColumn ∧ c.name ≠ tenantColumn) :
    ((slots t).map Slot.name).Nodup ↔ ∀ c ∈ t.columns, c.name = "id" → c.type = .id := by
  have hother : ∀ name, name ∈ (t.columns.filter (·.type != .id)).map (·.name) ↔
      ∃ c ∈ t.columns, c.type ≠ .id ∧ c.name = name := by simp [and_assoc]
  have hnames : (slots t).map Slot.name
      = "id" :: ((t.columns.filter (·.type != .id)).map (·.name)
          ++ [documentColumn, tenantColumn]) := by
    simp [slots, Slot.name, Function.comp_def]
  rw [hnames, List.nodup_cons, List.mem_append, hother]
  constructor
  · rintro ⟨hid, -⟩ c hc hname
    by_contra htype
    exact hid (.inl ⟨c, hc, htype, hname⟩)
  · intro hall
    refine ⟨?_, (hnodup.sublist (List.filter_sublist.map _)).append (by decide) ?_⟩
    · rintro (⟨c, hc, htype, hname⟩ | hmem)
      · exact htype (hall c hc hname)
      · exact absurd hmem (by decide)
    · intro name hname hmem
      obtain ⟨c, hc, -, rfl⟩ := (hother name).mp hname
      obtain ⟨hdocument, htenant⟩ := hfixed c hc
      simp [hdocument, htenant] at hmem

/-- The columns of an inferred table are declared under different names, except where a field that
is not the identifier has the identifier's column name. -/
theorem declared_names_nodup_iff (h : infer t fields = ⟨columns, none⟩) :
    (∀ d : Definer, d.declarations { t with columns := columns }
      = (slots { t with columns := columns }).map fun slot =>
          slot.identifier ++ " " ++ d.columnType slot) ∧
    (((slots { t with columns := columns }).map Slot.name).Nodup ↔
      ∀ field ∈ fields.map Prod.fst, columnName field = "id" → field = idField) := by
  have hnamed := infer_named h
  have hfixed : ∀ c ∈ columns, c.name ≠ documentColumn ∧ c.name ≠ tenantColumn := by
    intro c hc
    simpa [reservedColumns, documentColumn, tenantColumn] using hnamed.free c hc
  refine ⟨?_, (slot_names_nodup_iff hnamed.nodup hfixed).trans ?_⟩
  · intro d
    rw [d.declarations_eq]
    exact List.map_congr_left fun slot _ => d.declaration_eq slot
  constructor
  · intro hall field hfield hname
    obtain ⟨c, hc, rfl⟩ := (exists_column_iff h field).mpr hfield
    rw [← hnamed.name_eq c hc] at hname
    exact (infer_type_eq_id_iff h hc).mp (hall c hc hname)
  · intro hall c hc hname
    rw [hnamed.name_eq c hc] at hname
    exact (infer_type_eq_id_iff h hc).mpr
      (hall c.source ((exists_column_iff h c.source).mp ⟨c, hc, rfl⟩) hname)

theorem plainColumns_nodup :
    infer plainTable plainFields = ⟨plainColumns, none⟩ ∧
      ((slots { plainTable with columns := plainColumns }).map Slot.name).Nodup :=
  ⟨infer_plainFields, (declared_names_nodup_iff infer_plainFields).2.mpr (by decide +kernel)⟩

/-- The identifier itself need not have been seen for its name to be taken. -/
theorem capitals_declare_id_twice :
    infer plainTable [("ID", oneString)] = ⟨[⟨"id", "ID", .varchar⟩], none⟩ ∧
    plainDefiner.Declares { plainTable with columns := [⟨"id", "ID", .varchar⟩] }
      ["id", "id", "data", "tenant_id"] ∧
    ¬(["id", "id", "data", "tenant_id"] : List String).Nodup := by
  refine ⟨?_, ⟨_, Definer.create_eq _ _, by decide +kernel⟩, by decide⟩
  rw [infer, Json.sortMembers, List.mergeSort_singleton]
  decide +kernel

end

end Staging.Sql
