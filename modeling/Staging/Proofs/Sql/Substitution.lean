import Staging.Proofs.Sql.Document
import Staging.Proofs.Sql.Fitting
import Staging.Proofs.Stage.Ledger

/-!
# Substitutions are reported

Which values of a record break a limit is said of the record alone (`Encoder.brokenAt?`). A row that
was encoded has the substitute in just these places and the encoding of the value in all others, and
there is one warning and one count for each of them and nothing else
(`Encoder.substitutions_reported`).
-/

namespace Staging.Sql

open Schema

/-! ## Limits -/

/-- What a value can be too much for. -/
inductive Limit
  | stringLength
  | numericRange
  | documentSize
  deriving DecidableEq, Repr

namespace Limit

/-- The limit, as substitutions are counted. -/
def reason : Limit → String
  | .stringLength => "string_length"
  | .numericRange => "numeric_range"
  | .documentSize => "document_size"

/-- What the warnings about the limit begin with. -/
def headline : Limit → String
  | .stringLength => "String length exceeds database limit:\n    Table: "
  | .numericRange => "Numeric value exceeds 10^10:\n    Table: "
  | .documentSize => "JSON object size exceeds database limit:\n    Table: "

/-- What is written in place of a value that breaks the limit. -/
def substitute : Limit → String
  | .stringLength => "NULL"
  | .numericRange => "0"
  | .documentSize => "NULL"

/-- Whether a record is about the limit. -/
def isSubject (l : Limit) (r : Log.Record) : Bool :=
  l.headline.toList.isPrefixOf r.message.toList

theorem reason_inj {l k : Limit} : l.reason = k.reason ↔ l = k := by
  cases l <;> cases k <;> simp [reason]

end Limit

namespace Substitution

/-- The limit that was broken. -/
def limit : Substitution → Limit
  | .stringLength _ _ => .stringLength
  | .numericRange _ _ => .numericRange
  | .documentSize _ => .documentSize

theorem reason_eq (sub : Substitution) : sub.reason = sub.limit.reason := by
  cases sub <;> rfl

theorem message_eq (sub : Substitution) (table id : String) :
    ∃ rest, sub.message table id = sub.limit.headline ++ rest := by
  unfold message
  cases sub <;>
    · simp only [String.append_assoc]
      exact ⟨_, rfl⟩

end Substitution

/-- The first letter tells the limits apart. -/
theorem Limit.headline_prefix {l k : Limit} {rest : List Char} :
    l.headline.toList <+: k.headline.toList ++ rest ↔ l = k := by
  constructor
  · intro h
    have hhead : l.headline.toList.head? = k.headline.toList.head? := by
      obtain ⟨more, hmore⟩ := h
      have hsame := congrArg List.head? hmore
      cases l <;> cases k <;> exact hsame
    cases l <;> cases k <;> first | rfl | exact absurd hhead (by decide)
  · rintro rfl
    exact List.prefix_append _ _

theorem Substitution.isSubject_staged (sub : Substitution) (l : Limit) (staged : Option String)
    (channel table id : String) (level : Log.Level) (fields : Members) :
    l.isSubject (Log.staged staged channel level (sub.message table id) fields)
      = (sub.limit == l) := by
  obtain ⟨rest, hrest⟩ := sub.message_eq table id
  have hmessage : (Log.staged staged channel level (sub.message table id) fields).message
      = sub.limit.headline ++ rest := hrest
  rw [Limit.isSubject, hmessage, String.toList_append, Bool.eq_iff_iff, List.isPrefixOf_iff_prefix,
    Limit.headline_prefix, beq_iff_eq]
  exact eq_comm

/-- What a journal adds to the substitutions of a table, whatever their reason. -/
def substitutionsOf (table : String) (journal : List Note) : Nat :=
  (((journal.filterMap Journal.tally?).filter fun t =>
    t.1.metric == .valueSubstitutions && t.1.labels.lookup "table" == some table).map (·.2)).sum

namespace Encoder

variable {σ : Type} {e : Encoder} {record v : Json} {c : Column} {id text : String} {cell : Cell}

/-! ## What is reported -/

theorem records_reports (e : Encoder) (staged : Option String) (id : String)
    (subs : List Substitution) : Journal.records (subs.flatMap (e.reportOf staged id))
      = subs.map fun sub => Log.staged staged channel Log.Level.warning
          (sub.message e.table.name id) (sub.fields e.table.name id) := by
  induction subs with
  | nil => rfl
  | cons sub subs ih =>
      rw [List.flatMap_cons, List.map_cons, ← ih]
      rfl

theorem tallies_reports (e : Encoder) (staged : Option String) (id : String)
    (subs : List Substitution) : (subs.flatMap (e.reportOf staged id)).filterMap Journal.tally?
      = subs.map fun sub => (.valueSubstitutions e.table.name sub.reason, 1) := by
  induction subs with
  | nil => rfl
  | cons sub subs ih =>
      rw [List.flatMap_cons, List.map_cons, ← ih]
      rfl

theorem length_reports (e : Encoder) (staged : Option String) (id : String)
    (subs : List Substitution) :
    (subs.flatMap (e.reportOf staged id)).length = 2 * subs.length := by
  induction subs with
  | nil => rfl
  | cons sub subs ih =>
      rw [List.flatMap_cons, List.length_append, ih, List.length_cons, Nat.mul_add, Nat.add_comm]
      rfl

theorem substitutionsOf_reports (e : Encoder) (staged : Option String) (id : String)
    (subs : List Substitution) :
    substitutionsOf e.table.name (subs.flatMap (e.reportOf staged id)) = subs.length := by
  rw [substitutionsOf, tallies_reports]
  induction subs with
  | nil => rfl
  | cons sub subs ih =>
      rw [List.map_cons, List.filter_cons_of_pos, List.map_cons, List.sum_cons, ih,
        List.length_cons, Nat.add_comm]
      simp [Series.valueSubstitutions, Series.labels, Metric.labelNames, List.lookup_cons]

theorem total_reports (e : Encoder) (staged : Option String) (id : String)
    (subs : List Substitution) (l : Limit) :
    Journal.total (subs.flatMap (e.reportOf staged id))
        (.valueSubstitutions e.table.name l.reason)
      = (subs.map (·.limit)).count l := by
  induction subs with
  | nil => rfl
  | cons sub subs ih =>
      have hone : Journal.total (e.reportOf staged id sub)
          (.valueSubstitutions e.table.name l.reason) = if sub.limit = l then 1 else 0 := by
        have hseries : (Series.valueSubstitutions e.table.name sub.reason
            == Series.valueSubstitutions e.table.name l.reason) = decide (sub.limit = l) := by
          rw [sub.reason_eq, Bool.eq_iff_iff, beq_iff_eq, decide_eq_true_eq, ← Limit.reason_inj]
          simp [Series.valueSubstitutions]
        rw [Journal.total]
        simp only [reportOf, Journal.tally?, List.filterMap_cons, List.filterMap_nil,
          List.filter_cons, List.filter_nil, hseries, decide_eq_true_eq]
        split <;> rfl
      rw [List.flatMap_cons, Stage.total_append, ih, hone, List.map_cons, List.count_cons]
      simp only [beq_iff_eq]
      omega

theorem countP_reports (e : Encoder) (staged : Option String) (id : String)
    (subs : List Substitution) (l : Limit) :
    (Journal.records (subs.flatMap (e.reportOf staged id))).countP l.isSubject
      = (subs.map (·.limit)).count l := by
  rw [records_reports, List.countP_map, List.count, List.countP_map]
  refine List.countP_congr fun sub _ => ?_
  simp only [Function.comp_apply, sub.isSubject_staged]

/-! ## Places -/

/-- The value of a column in a record; null if there is none. -/
def columnValue (record : Json) (c : Column) : Json := (record.member? c.source).getD .null

/-- The limit that a value, if it is not null, breaks in a column of this type. -/
def overLimit? (e : Encoder) (type : ColumnType) (v : Json) : Option Limit :=
  match type with
  | .bigint => none
  | .boolean => none
  | .numeric =>
    match v.toDouble with
    | .ok x => if x.exceeds e.settings.numericLimit then some .numericRange else none
    | .error _ => none
  | _ =>
    if e.settings.maxStringLength ≤ (e.dialect.literal (storedText v)).length
    then some .stringLength else none

/-- The limit that a value breaks in a column of this type; null breaks none. -/
def broken? (e : Encoder) (type : ColumnType) (v : Json) : Option Limit :=
  match v with
  | .null => none
  | v => e.overLimit? type v

/-- The limit that a record breaks in a place. -/
def brokenAt? (e : Encoder) (record : Json) : Slot → Option Limit
  | .field c => e.broken? c.type (columnValue record c)
  | .document =>
    if e.settings.maxStringLength < (e.compactLiteral record).length then some .documentSize
    else none
  | _ => none

/-- The limits that a record breaks, in the order of its places. -/
def brokenLimits (e : Encoder) (record : Json) : List Limit :=
  (slots e.table).filterMap (e.brokenAt? record)

/-- The encoding of what a record has in a place, if nothing is substituted. -/
inductive Plain (e : Encoder) (record : Json) : Slot → String → Prop
  | id {id : String} (hid : recordId? record = some id) : Plain e record .id (e.dialect.literal id)
  | null {c : Column} (hv : columnValue record c = .null) : Plain e record (.field c) "NULL"
  | bigint {c : Column} {n : Int} (hc : c.type = .bigint) (hv : columnValue record c ≠ .null)
    (hn : (columnValue record c).toInteger = .ok n) : Plain e record (.field c) (toString n)
  | boolean {c : Column} (hc : c.type = .boolean) (hv : columnValue record c ≠ .null) :
    Plain e record (.field c) (if (columnValue record c).isTruthy then "TRUE" else "FALSE")
  | numeric {c : Column} {x : Double} (hc : c.type = .numeric) (hv : columnValue record c ≠ .null)
    (hx : (columnValue record c).toDouble = .ok x) : Plain e record (.field c) x.text
  | text {c : Column} (hc : c.type = .timestamptz ∨ c.type = .varchar)
    (hv : columnValue record c ≠ .null) :
    Plain e record (.field c) (e.dialect.literal (storedText (columnValue record c)))
  | pretty (h : (e.prettyLiteral record).length ≤ e.settings.maxStringLength) :
    Plain e record .document (e.prettyLiteral record)
  | compact (h : e.settings.maxStringLength < (e.prettyLiteral record).length) :
    Plain e record .document (e.compactLiteral record)
  | tenant : Plain e record .tenant (toString e.settings.tenantId)

/-- What is written in a place: the substitute if a limit is broken, else the encoding. A null
stands for no other value, nor a zero for a number, without a broken limit. -/
structure Written (e : Encoder) (record : Json) (slot : Slot) (text : String) : Prop where
  substitute : ∀ l, e.brokenAt? record slot = some l → text = l.substitute
  plain : e.brokenAt? record slot = none → e.Plain record slot text
  null : text = "NULL" → e.brokenAt? record slot = none →
    ∃ c, slot = .field c ∧ columnValue record c = .null
  zero : ∀ c, slot = .field c → c.type = .numeric → text = "0" →
    e.brokenAt? record slot = some .numericRange

/-! ## Texts that are taken for no other -/

theorem ne_null_of_cons {text : String} {c : Char} {t : List Char} (h : text.toList = c :: t)
    (hc : c ≠ 'N') : text ≠ "NULL" := by
  rintro rfl
  exact hc (List.cons.inj h).1.symm

theorem ne_N_of_numeral {c : Char} (h : c = '-' ∨ c.isDigit = true) : c ≠ 'N' := by
  rintro rfl
  exact absurd h (by decide)

theorem toString_ne_null (n : Int) : toString n ≠ "NULL" := by
  obtain ⟨c, t, hct, hc⟩ := Json.intChars_head n
  rw [← ofList_intChars]
  exact ne_null_of_cons (by rw [String.toList_ofList, hct]) (ne_N_of_numeral hc)

theorem text_ne_null (x : Double) : x.text ≠ "NULL" := by
  obtain ⟨c, t, hct, hc⟩ := Json.magnitudeChars_head x
  have hdigit : c ≠ 'N' := ne_N_of_numeral (.inr hc)
  have htext : x.text.toList = x.chars .plain := String.toList_ofList
  rw [Double.chars] at htext
  split at htext
  · exact ne_null_of_cons htext (by decide)
  · cases hneg : x.negative with
    | true =>
        rw [hneg, if_pos rfl] at htext
        exact ne_null_of_cons htext (by decide)
    | false =>
        rw [hneg, if_neg Bool.false_ne_true, List.nil_append] at htext
        split at htext
        · exact ne_null_of_cons htext (by decide)
        · exact ne_null_of_cons (htext.trans hct) hdigit

/-- A text of digits has a point or an exponent. -/
theorem length_layOut {digits : List Char} (hne : digits ≠ []) (point : Int) :
    1 < (Double.layOut digits point).length := by
  have hpos := List.length_pos_of_ne_nil hne
  rw [Double.layOut.eq_def]
  split
  · split
    · simp
    · split
      · have hsplit := congrArg List.length (List.take_append_drop point.natAbs digits)
        rw [List.length_append] at hsplit
        rw [List.length_append, List.length_cons]
        omega
      · simp only [List.length_append, List.length_replicate, List.length_cons, List.length_nil]
        omega
  · cases digits with
    | nil => exact absurd rfl hne
    | cons d rest =>
        cases rest with
        | nil => simp [Double.exponentChars]
        | cons d' rest => simp

theorem text_ne_zero (x : Double) : x.text ≠ "0" := by
  have hmagnitude : 1 < x.magnitudeChars.length := by
    rcases Nat.eq_zero_or_pos x.rank with hrank | hpos
    · have hzero : x.isZero = true := beq_iff_eq.mpr hrank
      rw [Double.magnitudeChars, if_pos hzero]
      decide
    · obtain ⟨digits, point, htext, hne, -⟩ := Json.magnitudeChars_eq hpos
      rw [htext]
      exact length_layOut hne point
  have hunsigned : 1 < (if x.isInfinite then DoubleWords.plain.infinite.toList
      else x.magnitudeChars).length := by
    split
    · decide
    · exact hmagnitude
  have hlength : 1 < (x.chars .plain).length := by
    rw [Double.chars]
    split
    · decide
    · rw [List.length_append]
      omega
  intro h
  have hzero : x.chars .plain = "0".toList := by rw [← h, Double.text, String.toList_ofList]
  rw [hzero] at hlength
  exact absurd hlength (by decide)

/-! ## What is written -/

theorem Plain.eq_null {slot : Slot} (h : e.Plain record slot text) (htext : text = "NULL") :
    ∃ c, slot = .field c ∧ columnValue record c = .null := by
  cases h with
  | null hv => exact ⟨_, rfl, hv⟩
  | id hid => exact absurd htext (literal_ne_null e.dialect _)
  | bigint hc hv hn => exact absurd htext (toString_ne_null _)
  | boolean hc hv =>
      split at htext
      · exact absurd htext (by decide)
      · exact absurd htext (by decide)
  | numeric hc hv hx => exact absurd htext (text_ne_null _)
  | text hc hv => exact absurd htext (literal_ne_null e.dialect _)
  | pretty h => exact absurd htext (literal_ne_null e.dialect _)
  | compact h => exact absurd htext (literal_ne_null e.dialect _)
  | tenant => exact absurd htext (toString_ne_null _)

theorem Plain.ne_zero (h : e.Plain record (.field c) text) (hc : c.type = .numeric) :
    text ≠ "0" := by
  cases h with
  | null hv => decide
  | bigint hbigint hv hn => exact absurd (hc.symm.trans hbigint) (by decide)
  | boolean hboolean hv => exact absurd (hc.symm.trans hboolean) (by decide)
  | numeric hc hv hx => exact text_ne_zero _
  | text htext hv =>
      rcases htext with htext | htext <;> exact absurd (hc.symm.trans htext) (by decide)

theorem written_plain {slot : Slot} (hnone : e.brokenAt? record slot = none)
    (h : e.Plain record slot text) : e.Written record slot text where
  substitute := fun l hl => absurd (hnone.symm.trans hl) (Option.some_ne_none l).symm
  plain := fun _ => h
  null := fun htext _ => h.eq_null htext
  zero := fun c hslot hc htext => by
    subst hslot
    exact absurd htext (h.ne_zero hc)

theorem written_substitute {slot : Slot} {l : Limit} (hsome : e.brokenAt? record slot = some l) :
    e.Written record slot l.substitute where
  substitute := fun k hk => by rw [Option.some.inj (hsome.symm.trans hk)]
  plain := fun hnone => absurd (hsome.symm.trans hnone) (Option.some_ne_none l)
  null := fun _ hnone => absurd (hsome.symm.trans hnone) (Option.some_ne_none l)
  zero := fun c hslot hc htext => by
    rw [hsome]
    cases l with
    | numericRange => rfl
    | stringLength => exact absurd htext (by decide)
    | documentSize => exact absurd htext (by decide)

theorem brokenAt?_null (hv : columnValue record c = .null) :
    e.brokenAt? record (.field c) = none := by
  rw [brokenAt?, hv, broken?]

theorem brokenAt?_field (hv : columnValue record c ≠ .null) :
    e.brokenAt? record (.field c) = e.overLimit? c.type (columnValue record c) := by
  rw [brokenAt?]
  cases h : columnValue record c with
  | null => exact absurd h hv
  | _ => rfl

theorem overLimit?_numeric {x : Double} (hx : v.toDouble = .ok x) :
    e.overLimit? .numeric v
      = if x.exceeds e.settings.numericLimit then some .numericRange else none := by
  simp only [overLimit?, hx]

theorem overLimit?_text {type : ColumnType} (htype : type = .timestamptz ∨ type = .varchar) :
    e.overLimit? type v
      = if e.settings.maxStringLength ≤ (e.dialect.literal (storedText v)).length
        then some .stringLength else none := by
  rcases htype with rfl | rfl <;> rfl

/-- What a cell replaces, and what it shows. -/
def Accounts (e : Encoder) (record : Json) (slot : Slot) (cell : Cell) : Prop :=
  cell.substitution.map (·.limit) = e.brokenAt? record slot ∧ e.Written record slot cell.text

theorem accounts_plain {slot : Slot} (hnone : e.brokenAt? record slot = none)
    (h : e.Plain record slot text) : e.Accounts record slot ⟨text, none⟩ :=
  ⟨hnone.symm, written_plain hnone h⟩

/-- A cell that is a substitute just if the limit is broken. -/
theorem accounts_limited {slot : Slot} {broken : Prop} [Decidable broken] (sub : Substitution)
    (hbroken : e.brokenAt? record slot = if broken then some sub.limit else none)
    (hplain : ¬broken → e.Plain record slot text) :
    e.Accounts record slot
      (if broken then ⟨sub.limit.substitute, some sub⟩ else ⟨text, none⟩) := by
  by_cases h : broken
  · rw [if_pos h] at hbroken ⊢
    exact ⟨hbroken.symm, written_substitute hbroken⟩
  · rw [if_neg h] at hbroken ⊢
    exact accounts_plain hbroken (hplain h)

theorem accounts_number {x : Double} (hc : c.type = .numeric)
    (hv : columnValue record c ≠ .null) (hx : (columnValue record c).toDouble = .ok x) :
    e.Accounts record (.field c) (e.encodeNumber c x) := by
  have hbroken := brokenAt?_field (e := e) hv
  rw [hc, overLimit?_numeric hx] at hbroken
  exact accounts_limited (.numericRange c.name x) hbroken fun _ => .numeric hc hv hx

theorem accounts_text (hc : c.type = .timestamptz ∨ c.type = .varchar)
    (hv : columnValue record c ≠ .null) :
    e.Accounts record (.field c) (e.encodeText c (columnValue record c)) := by
  have hbroken := brokenAt?_field (e := e) hv
  rw [overLimit?_text hc] at hbroken
  exact accounts_limited (.stringLength c.name _) hbroken fun _ => .text hc hv

theorem mapError_eq_ok {ε ε' α : Type} {x : Except ε α} {f : ε → ε'} {a : α} :
    x.mapError f = .ok a ↔ x = .ok a := by
  cases x <;> simp [Except.mapError]

/-- The value of a column is accounted for by the type of the column. -/
theorem accounts_value (hid : c.type ≠ .id)
    (h : e.encodeValue c (columnValue record c) = .ok cell) :
    e.Accounts record (.field c) cell := by
  by_cases hv : columnValue record c = .null
  · rw [hv, encodeValue_null] at h
    obtain rfl := Except.ok.inj h
    exact accounts_plain (brokenAt?_null hv) (.null hv)
  have hbroken := brokenAt?_field (e := e) hv
  cases hc : c.type with
  | id => exact absurd hc hid
  | bigint =>
      rw [encodeValue_bigint hv hc] at h
      obtain ⟨n, hn, rfl⟩ := Run.map_eq_ok.mp h
      rw [hc] at hbroken
      rw [ofList_intChars]
      exact accounts_plain hbroken (.bigint hc hv (mapError_eq_ok.mp hn))
  | boolean =>
      rw [encodeValue_boolean hv hc] at h
      obtain rfl := Except.ok.inj h
      rw [hc] at hbroken
      exact accounts_plain hbroken (.boolean hc hv)
  | numeric =>
      rw [encodeValue_numeric hv hc] at h
      obtain ⟨x, hx, rfl⟩ := Run.map_eq_ok.mp h
      exact accounts_number hc hv (mapError_eq_ok.mp hx)
  | timestamptz =>
      rw [encodeValue_asText hv (.inl hc)] at h
      obtain rfl := Except.ok.inj h
      exact accounts_text (.inl hc) hv
  | varchar =>
      rw [encodeValue_asText hv (.inr hc)] at h
      obtain rfl := Except.ok.inj h
      exact accounts_text (.inr hc) hv

theorem accounts_document (e : Encoder) (record : Json) :
    e.Accounts record .document (e.encodeDocument record) := by
  by_cases hlong : e.settings.maxStringLength < (e.compactLiteral record).length
  · have hbroken : e.brokenAt? record .document = some .documentSize := if_pos hlong
    rw [encodeDocument_null hlong]
    exact ⟨hbroken.symm, written_substitute hbroken⟩
  · have hbroken : e.brokenAt? record .document = none := if_neg hlong
    by_cases hpretty : (e.prettyLiteral record).length ≤ e.settings.maxStringLength
    · rw [encodeDocument_pretty hpretty]
      exact accounts_plain hbroken (.pretty hpretty)
    · rw [encodeDocument_compact (not_le.mp hpretty) (not_lt.mp hlong)]
      exact accounts_plain hbroken (.compact (not_le.mp hpretty))

theorem type_of_mem_slots {t : Table} (h : .field c ∈ slots t) : c.type ≠ .id := by
  simp only [slots, List.mem_cons, List.mem_append, List.mem_map, List.mem_filter, bne_iff_ne,
    reduceCtorEq, Slot.field.injEq, exists_eq_right, List.not_mem_nil, or_false, false_or] at h
  exact h.2

/-- Each cell of a row accounts for its place. -/
theorem accounts_cell {slot : Slot} (hslot : slot ∈ slots e.table)
    (hid : recordId? record = some id) (h : e.cell record id slot = .ok cell) :
    e.Accounts record slot cell := by
  cases slot with
  | id =>
      obtain rfl := Except.ok.inj h
      exact accounts_plain rfl (.id hid)
  | field c => exact accounts_value (type_of_mem_slots hslot) h
  | document =>
      obtain rfl := Except.ok.inj h
      exact accounts_document e record
  | tenant =>
      obtain rfl := Except.ok.inj h
      rw [ofList_intChars]
      exact accounts_plain rfl .tenant

/-! ## Rows -/

theorem limits_accounted {places : List Slot} {cells : List Cell}
    (h : List.Forall₂ (e.Accounts record) places cells) :
    (cells.filterMap (·.substitution)).map (·.limit) = places.filterMap (e.brokenAt? record) := by
  induction h with
  | nil => rfl
  | @cons slot cell _ _ hcell _ ih =>
      rw [List.filterMap_cons, List.filterMap_cons, ← hcell.1]
      cases cell.substitution with
      | none => exact ih
      | some sub => exact congrArg (sub.limit :: ·) ih

/-- A row that was encoded shows each value or its substitute, the latter in just the places where
the record breaks a limit. For each of these there is one warning and one count of the limit, and
beyond them the row leaves nothing behind. -/
theorem substitutions_reported (e : Encoder) (record : Json) (s : Session σ)
    (h : ((e.encodeRow record).run s).1 = .ok text) :
    ∃ (texts : List String) (notes : List Note), text = tuple texts ∧
      ((e.encodeRow record).run s).2 = { s with journal := s.journal ++ notes } ∧
      List.Forall₂ (e.Written record) (slots e.table) texts ∧
      notes.length = 2 * (e.brokenLimits record).length ∧
      (∀ r ∈ Journal.records notes, r.level = Log.Level.warning) ∧
      (Journal.records notes).length = (e.brokenLimits record).length ∧
      substitutionsOf e.table.name notes = (e.brokenLimits record).length ∧
      ∀ l : Limit,
        (Journal.records notes).countP l.isSubject = (e.brokenLimits record).count l ∧
        Journal.total notes (.valueSubstitutions e.table.name l.reason)
          = (e.brokenLimits record).count l := by
  obtain ⟨id, cells, hid, hcells, htext, hrun⟩ := encodeRow_ok h
  have haccounts : List.Forall₂ (e.Accounts record) (slots e.table) cells := by
    have hmem := (List.forall₂_and_left _ _).mpr ⟨fun slot hslot => hslot, hcells⟩
    exact hmem.imp fun slot cell hcell => accounts_cell hcell.1 hid hcell.2
  have hlimits := limits_accounted haccounts
  have hlength : (cells.filterMap (·.substitution)).length = (e.brokenLimits record).length := by
    rw [brokenLimits, ← hlimits, List.length_map]
  refine ⟨cells.map Cell.text, _, htext, hrun, ?_, ?_, ?_, ?_, ?_, fun l => ⟨?_, ?_⟩⟩
  · rw [List.forall₂_map_right_iff]
    exact haccounts.imp fun _ _ hcell => hcell.2
  · rw [length_reports, hlength]
  · rw [records_reports]
    intro r hr
    obtain ⟨sub, -, rfl⟩ := List.mem_map.mp hr
    rfl
  · rw [records_reports, List.length_map, hlength]
  · rw [substitutionsOf_reports, hlength]
  · rw [countP_reports, hlimits]
    rfl
  · rw [total_reports, hlimits]
    rfl

/-- An encoder with little room for text. -/
def narrowEncoder : Encoder where
  table :=
    { name := "notes", sourcePath := "/notes", moduleName := "mod-notes"
      columns := [⟨"id", "id", .id⟩, ⟨"a", "a", .varchar⟩, ⟨"b", "b", .varchar⟩,
        ⟨"n", "n", .numeric⟩] }
  dialect := .postgres
  settings := { maxStringLength := 7 }

/-- A record with a text that becomes too long when its quote is escaped, and a number that is too
large. -/
def crowdedNote : Json :=
  .obj [("id", .int 1), ("a", .str "it\x27s"), ("b", .str "its"), ("n", .int (-100000000000))]

theorem crowdedNote_reported : ∃ notes : List Note,
    (narrowEncoder.encodeRow crowdedNote).run ({ own := () } : Session Unit)
      = (.ok "(E\x271\x27,NULL,E\x27its\x27,0,NULL,1)",
        { journal := (#[] : Array Note) ++ notes, own := () }) ∧
    (Journal.records notes).length = 3 ∧ substitutionsOf "notes" notes = 3 ∧
    Journal.total notes (.valueSubstitutions "notes" "numeric_range") = 1 := by
  have hrow : narrowEncoder.rowText crowdedNote
      = .ok "(E\x271\x27,NULL,E\x27its\x27,0,NULL,1)" := by decide +kernel
  have hlimits : narrowEncoder.brokenLimits crowdedNote
      = [.stringLength, .numericRange, .documentSize] := by decide +kernel
  have hrun := (encodeRow_outcome narrowEncoder crowdedNote ({ own := () } : Session Unit)).trans
    hrow
  obtain ⟨texts, notes, -, hsession, -, -, -, hwarnings, hcounts, hlimit⟩ :=
    substitutions_reported narrowEncoder crowdedNote ({ own := () } : Session Unit) hrun
  rw [hlimits] at hwarnings hcounts
  refine ⟨notes, Prod.ext hrun hsession, hwarnings, hcounts, ?_⟩
  exact (hlimit .numericRange).2.trans (by rw [hlimits]; decide)

end Encoder

end Staging.Sql
