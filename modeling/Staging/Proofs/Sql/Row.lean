import Mathlib.Data.List.Forall2
import Staging.Proofs.Session
import Staging.Sql.Row

/-!
# Rows as a function of the record

What comes of encoding a record does not depend on the session: the text of the row, or the failure,
is `Encoder.rowText`, and the session gains nothing but the reports of substitutions.
-/

namespace Staging.Sql

open Schema

namespace Encoder

variable {σ : Type}

/-- The text of a record's row. -/
def rowText (e : Encoder) (record : Json) : Except Failure String :=
  match recordId? record with
  | none => .error (.missingId e.table.name)
  | some id => (e.encodeCells record id).outcome.map tuple

theorem reports_ok (e : Encoder) (id : String) (l : List Substitution) (s : Session σ) :
    ∃ s', (l.forM (e.report id) : Run σ PUnit).run s = (.ok (), s') := by
  induction l generalizing s with
  | nil => exact ⟨s, rfl⟩
  | cons a l ih => exact ih _

theorem encodeRow_outcome (e : Encoder) (record : Json) (s : Session σ) :
    ((e.encodeRow record).run s).1 = e.rowText record := by
  rw [encodeRow, rowText]
  cases recordId? record with
  | none => rfl
  | some id =>
      obtain ⟨s', hs'⟩ := reports_ok e id (e.encodeCells record id).substitutions s
      simp only
      rw [Run.run_bind_ok hs']
      cases (e.encodeCells record id).outcome <;> rfl

/-- The record is encoded as this text. -/
def Encodes (e : Encoder) (record : Json) (text : String) : Prop :=
  ∃ session, (e.encodeRow record : Run Unit String).start () = (.ok text, session)

theorem encodes_iff {e : Encoder} {record : Json} {text : String} :
    e.Encodes record text ↔ e.rowText record = .ok text := by
  rw [Encodes, Run.start, ← encodeRow_outcome e record (σ := Unit) { own := () }]
  constructor
  · rintro ⟨session, h⟩
    rw [h]
  · intro h
    exact ⟨_, Prod.ext h rfl⟩

/-! ## Values -/

variable {e : Encoder} {c : Column} {v : Json}

theorem encodeValue_null : e.encodeValue c .null = .ok ⟨null, none⟩ := by
  rw [encodeValue]

theorem encodeValue_bigint (hv : v ≠ .null) (hc : c.type = .bigint) :
    e.encodeValue c v = (v.toInteger.mapError Failure.number).map fun n =>
      ⟨String.ofList (Json.intChars n), none⟩ := by
  cases v <;> simp_all [encodeValue]

theorem encodeValue_boolean (hv : v ≠ .null) (hc : c.type = .boolean) :
    e.encodeValue c v = .ok ⟨if v.isTruthy then "TRUE" else "FALSE", none⟩ := by
  cases v <;> simp_all [encodeValue]

theorem encodeValue_numeric (hv : v ≠ .null) (hc : c.type = .numeric) :
    e.encodeValue c v = (v.toDouble.mapError Failure.number).map (e.encodeNumber c) := by
  cases v <;> simp_all [encodeValue]

theorem encodeValue_text (hv : v ≠ .null) (hbigint : c.type ≠ .bigint)
    (hboolean : c.type ≠ .boolean) (hnumeric : c.type ≠ .numeric) :
    e.encodeValue c v = .ok (e.encodeText c v) := by
  rw [encodeValue.eq_def]
  split <;> simp_all

/-! ## Cells -/

theorem gathered_ok {cells : List (Except Failure Cell)} {texts : List String} :
    (cells.foldr Row.cons ⟨[], .ok []⟩).outcome = .ok texts ↔
      List.Forall₂ (fun cell text => ∃ c, cell = .ok c ∧ c.text = text) cells texts := by
  induction cells generalizing texts with
  | nil =>
      rw [List.forall₂_nil_left_iff, List.foldr_nil]
      exact ⟨fun h => (Except.ok.inj h).symm, fun h => by rw [h]⟩
  | cons cell cells ih =>
      rw [List.foldr_cons, List.forall₂_cons_left_iff]
      cases cell with
      | error failure =>
          constructor
          · intro h
            cases h
          · rintro ⟨_, _, ⟨c, hc, -⟩, -⟩
            cases hc
      | ok c =>
          rw [Row.cons]
          constructor
          · intro h
            obtain ⟨rest, hrest, rfl⟩ := Run.map_eq_ok.mp h
            exact ⟨c.text, rest, ⟨c, rfl, rfl⟩, ih.mp hrest, rfl⟩
          · rintro ⟨t, rest, ⟨c', hc', rfl⟩, hrest, rfl⟩
            obtain rfl := Except.ok.inj hc'
            rw [ih.mpr hrest]
            rfl

/-- A row all of whose cells were encoded has a text. -/
theorem gathered_of_forall {cells : List (Except Failure Cell)}
    (h : ∀ cell ∈ cells, ∃ c, cell = .ok c) :
    ∃ texts, (cells.foldr Row.cons ⟨[], .ok []⟩).outcome = .ok texts := by
  induction cells with
  | nil => exact ⟨[], rfl⟩
  | cons cell cells ih =>
      obtain ⟨c, rfl⟩ := h cell List.mem_cons_self
      obtain ⟨texts, htexts⟩ := ih fun other hother => h other (List.mem_cons_of_mem _ hother)
      exact ⟨c.text :: texts, by rw [List.foldr_cons, Row.cons, htexts]; rfl⟩

/-- What a row that was encoded is made of. -/
theorem rowText_ok {e : Encoder} {record : Json} {text : String} :
    e.rowText record = .ok text ↔ ∃ id texts, recordId? record = some id ∧
      List.Forall₂ (fun cell t => ∃ c, cell = .ok c ∧ c.text = t) (e.cells record id) texts ∧
      text = tuple texts := by
  rw [rowText]
  cases recordId? record with
  | none =>
      constructor
      · intro h
        cases h
      · rintro ⟨id, texts, hid, -⟩
        cases hid
  | some id =>
      constructor
      · intro h
        obtain ⟨texts, houtcome, rfl⟩ := Run.map_eq_ok.mp h
        exact ⟨id, texts, rfl, gathered_ok.mp houtcome, rfl⟩
      · rintro ⟨id', texts, hid, hcells, rfl⟩
        obtain rfl := Option.some.inj hid
        simp only [encodeCells, gathered_ok.mpr hcells]
        rfl

end Encoder

end Staging.Sql
