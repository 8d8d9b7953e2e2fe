import Staging.Proofs.Json.Layouts
import Staging.Proofs.Sql.Reports

/-!
# The document of a row

The literal of a record is never longer without spaces than with them, so a document is replaced
exactly if the former is too long. Whatever is written otherwise is read back, first as a literal of
the dialect and then as JSON, as the record itself (`document_written`).
-/

namespace Staging.Sql

/-! ## Reading literals -/

/-- Reads a literal from after its opening quote on: a quote is written twice and so is a backslash,
and one quote ends the literal. Databases differ in what else may follow a backslash, so nothing
else does here. -/
def readQuoted : List Char → Option (List Char)
  | [] => none
  | [c] => if c = '\x27' then some [] else none
  | c :: d :: rest =>
    if c = '\x27' ∨ c = '\\' then
      if d = c then (readQuoted rest).map (c :: ·) else none
    else (readQuoted (d :: rest)).map (c :: ·)

/-- The text that a literal of the dialect stands for. -/
def Dialect.read (d : Dialect) (literal : String) : Option String :=
  match d, literal.toList with
  | .postgres, 'E' :: '\x27' :: rest => (readQuoted rest).map String.ofList
  | .redshift, '\x27' :: rest => (readQuoted rest).map String.ofList
  | _, _ => none

theorem readQuoted_verbatim {c : Char} {rest : List Char} (hquote : c ≠ '\x27')
    (hbackslash : c ≠ '\\') (hrest : rest ≠ []) :
    readQuoted (c :: rest) = (readQuoted rest).map (c :: ·) := by
  obtain ⟨d, rest, rfl⟩ := List.exists_cons_of_ne_nil hrest
  rw [readQuoted, if_neg (not_or.mpr ⟨hquote, hbackslash⟩)]

theorem readQuoted_escaped (s : List Char) :
    readQuoted (s.flatMap Dialect.escapeChar ++ ['\x27']) = some s := by
  induction s with
  | nil => rfl
  | cons c s ih =>
      rw [List.flatMap_cons, List.append_assoc, Dialect.escapeChar]
      by_cases hbackslash : c = '\\'
      · rw [if_pos hbackslash, hbackslash, List.cons_append, List.singleton_append, readQuoted, ih]
        rfl
      · by_cases hquote : c = '\x27'
        · rw [if_neg hbackslash, if_pos hquote, hquote, List.cons_append, List.singleton_append,
            readQuoted, ih]
          rfl
        · have hrest : s.flatMap Dialect.escapeChar ++ ['\x27'] ≠ [] :=
            List.append_ne_nil_of_right_ne_nil _ (List.cons_ne_nil _ _)
          rw [if_neg hbackslash, if_neg hquote, List.singleton_append,
            readQuoted_verbatim hquote hbackslash hrest, ih]
          rfl

/-- A literal stands for the text that it was made of. -/
theorem read_literal (d : Dialect) (s : String) : d.read (d.literal s) = some s := by
  have htext : (d.literal s).toList
      = d.literalMark ++ '\x27' :: (s.toList.flatMap Dialect.escapeChar ++ ['\x27']) := by
    rw [Dialect.literal, String.toList_ofList, List.append_assoc]
    rfl
  rw [Dialect.read.eq_def, htext]
  cases d <;>
    simp only [Dialect.literalMark, List.cons_append, List.nil_append, readQuoted_escaped,
      Option.map_some, String.ofList_toList]

theorem length_literal (d : Dialect) (s : String) : (d.literal s).length
    = d.literalMark.length + (s.toList.flatMap Dialect.escapeChar).length + 2 := by
  rw [Dialect.literal, String.length_ofList, List.length_append, List.length_append]
  simp only [List.length_cons, List.length_nil]
  omega

theorem literal_ne_null (d : Dialect) (s : String) : d.literal s ≠ null := by
  intro h
  have hread := read_literal d s
  rw [h] at hread
  cases d <;> cases hread

/-! ## Documents -/

namespace Encoder

variable {σ : Type}

/-- The literal of a record with each member on a line of its own. -/
def prettyLiteral (e : Encoder) (record : Json) : String :=
  e.dialect.literal (record.render .pretty)

/-- The literal of a record without spaces. -/
def compactLiteral (e : Encoder) (record : Json) : String :=
  e.dialect.literal record.compact

/-- Without spaces a literal is never longer than with them. -/
theorem length_compactLiteral_le (e : Encoder) (record : Json) :
    (e.compactLiteral record).length ≤ (e.prettyLiteral record).length := by
  have hescaped := Json.length_flatMap_render Json.compact_tighter_pretty Dialect.escapeChar record
  rw [compactLiteral, prettyLiteral, length_literal, length_literal, Json.compact]
  omega

theorem encodeDocument_pretty {e : Encoder} {record : Json}
    (h : (e.prettyLiteral record).length ≤ e.settings.maxStringLength) :
    e.encodeDocument record = ⟨e.prettyLiteral record, none⟩ :=
  if_pos h

theorem encodeDocument_compact {e : Encoder} {record : Json}
    (hpretty : e.settings.maxStringLength < (e.prettyLiteral record).length)
    (hcompact : (e.compactLiteral record).length ≤ e.settings.maxStringLength) :
    e.encodeDocument record = ⟨e.compactLiteral record, none⟩ :=
  (if_neg (not_le.mpr hpretty)).trans (if_pos hcompact)

/-- A document whose literal is too long even without spaces is replaced. -/
theorem encodeDocument_null {e : Encoder} {record : Json}
    (h : e.settings.maxStringLength < (e.compactLiteral record).length) :
    e.encodeDocument record
      = ⟨null, some (.documentSize (e.compactLiteral record).length)⟩ := by
  have hpretty : e.settings.maxStringLength < (e.prettyLiteral record).length :=
    lt_of_lt_of_le h (Int.ofNat_le.mpr (length_compactLiteral_le e record))
  exact (if_neg (not_le.mpr hpretty)).trans (if_neg (not_le.mpr h))

/-- A document that is not replaced is written in one of two layouts that are read back. -/
theorem encodeDocument_kept {e : Encoder} {record : Json}
    (h : (e.compactLiteral record).length ≤ e.settings.maxStringLength) :
    ∃ l : Json.Layout, l.Readable ∧
      e.encodeDocument record = ⟨e.dialect.literal (record.render l), none⟩ ∧
      (e.dialect.literal (record.render l)).length ≤ e.settings.maxStringLength := by
  by_cases hpretty : (e.prettyLiteral record).length ≤ e.settings.maxStringLength
  · exact ⟨.pretty, Json.readable_pretty, encodeDocument_pretty hpretty, hpretty⟩
  · exact ⟨.compact, Json.readable_compact, encodeDocument_compact (not_le.mp hpretty) h, h⟩

/-- A document becomes null exactly if its literal is over the limit even without spaces, and this
is reported once. Any other document is written within the limit, indented if it fits so, and read
back as the record. -/
theorem document_written (e : Encoder) (record : Json) (id : String) (s : Session σ) :
    (e.compactLiteral record).length ≤ (e.prettyLiteral record).length ∧
    ∃ text subs,
      (e.writeCell id (.ok (e.encodeDocument record))).run s = (.ok text, e.reported id subs s) ∧
      (text = null ↔ e.settings.maxStringLength < (e.compactLiteral record).length) ∧
      (text = null → subs = [.documentSize (e.compactLiteral record).length]) ∧
      (text ≠ null → subs = [] ∧ text.length ≤ e.settings.maxStringLength ∧
        ((e.prettyLiteral record).length ≤ e.settings.maxStringLength →
          text = e.prettyLiteral record) ∧
        (record.Unrepeated → record.inRange = true →
          ∃ content, e.dialect.read text = some content ∧ Json.parse content = .ok record)) := by
  refine ⟨length_compactLiteral_le e record, _, _, run_writeCell e id _ s, ?_⟩
  by_cases hlong : e.settings.maxStringLength < (e.compactLiteral record).length
  · rw [encodeDocument_null hlong]
    exact ⟨iff_of_true rfl hlong, fun _ => rfl, fun hne => absurd rfl hne⟩
  · obtain ⟨l, hl, hcell, hfits⟩ := encodeDocument_kept (not_lt.mp hlong)
    have hne : (e.encodeDocument record).text ≠ null := by
      rw [hcell]
      exact literal_ne_null e.dialect _
    refine ⟨iff_of_false hne hlong, fun hnull => absurd hnull hne, fun _ => ⟨?_, ?_, ?_, ?_⟩⟩
    · rw [hcell]
      rfl
    · rw [hcell]
      exact hfits
    · intro hpretty
      rw [encodeDocument_pretty hpretty]
    · intro hunrepeated hrange
      rw [hcell]
      exact ⟨_, read_literal e.dialect _, Json.parse_render_unrepeated hl hrange hunrepeated⟩

/-- A record with both characters that are escaped in literals, its members not in order. -/
def nestedNote : Json :=
  .obj [("path", .str "c:\\x"), ("id", .str "a\x27b"), ("n", .arr [.int (-3), .obj [], .null])]

theorem nestedNote_read : nestedNote.Unrepeated ∧ nestedNote.inRange = true ∧
    ∃ text content, ((noteEncoder.writeCell "a\x27b"
        (.ok (noteEncoder.encodeDocument nestedNote))).run ({ own := () } : Session Unit)).1
          = .ok text ∧
      text ≠ null ∧ noteEncoder.dialect.read text = some content ∧
      Json.parse content = .ok nestedNote := by
  have hunrepeated : nestedNote.Unrepeated :=
    ⟨by decide, trivial, trivial, ⟨trivial, ⟨List.nodup_nil, trivial⟩, trivial, trivial⟩, trivial⟩
  have hrange : nestedNote.inRange = true := by decide +kernel
  obtain ⟨-, text, subs, hrun, hnull, -, hkept⟩ :=
    document_written noteEncoder nestedNote "a\x27b" ({ own := () } : Session Unit)
  have hne : text ≠ null := fun h => absurd (hnull.mp h) (by decide +kernel)
  obtain ⟨-, -, -, hread⟩ := hkept hne
  obtain ⟨content, hcontent, hparse⟩ := hread hunrepeated hrange
  exact ⟨hunrepeated, hrange, text, content, by rw [hrun], hne, hcontent, hparse⟩

end Encoder

end Staging.Sql
