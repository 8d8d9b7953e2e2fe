import Staging.Proofs.Json.Canonical
import Staging.Schema.Statistics

/-!
# What statistics say of records

The statistics of some records have tallies for just the fields that occur in them, and the tallies
of a field count its values in all records (`counts_observed`).
-/

namespace Staging.Schema

/-! ## Tallies of one field -/

/-- The tallies of some values. -/
def Counts.of (values : List Json) : Counts := values.foldl Counts.add {}

/-- The tally begins at zero and goes up with every value of a kind. -/
structure Tallies (tally : Counts → Int) (kind : Json → Bool) : Prop where
  zero : tally {} = 0
  add : ∀ c v, tally (c.add v) = tally c + if kind v then 1 else 0

namespace Tallies

variable {tally : Counts → Int} {kind : Json → Bool} {values : List Json}

theorem foldl (h : Tallies tally kind) (values : List Json) (c : Counts) :
    tally (values.foldl Counts.add c) = tally c + values.countP kind := by
  induction values generalizing c with
  | nil => exact (Int.add_zero _).symm
  | cons v values ih =>
      rw [List.foldl_cons, ih, h.add, List.countP_cons]
      split <;> push_cast <;> omega

/-- Of a kind that was not counted there is no value. -/
theorem absent (h : Tallies tally kind) (hnone : tally (.of values) ≤ 0) {v : Json}
    (hv : v ∈ values) : kind v = false := by
  rw [Counts.of, h.foldl, h.zero] at hnone
  have hcount : values.countP kind = 0 := by omega
  rw [List.countP_eq_zero] at hcount
  exact Bool.eq_false_iff.mpr (hcount v hv)

end Tallies

def isNumber (v : Json) : Bool := v.kind == .integer || v.kind == .float

def isNested (v : Json) : Bool := v.kind == .array || v.kind == .object

/-- Whether the value is a string that does not look like a date and time. -/
def isOtherString : Json → Bool
  | .str s => !looksLikeDateTime s
  | _ => false

theorem tallies_boolean : Tallies Counts.boolean (·.kind == .boolean) :=
  ⟨rfl, fun c v => by cases v <;> simp [Counts.add, Json.kind]⟩

theorem tallies_number : Tallies Counts.number isNumber :=
  ⟨rfl, fun c v => by cases v <;> simp [Counts.add, isNumber, Json.kind]⟩

theorem tallies_floating : Tallies Counts.floating (·.kind == .float) :=
  ⟨rfl, fun c v => by cases v <;> simp [Counts.add, Json.kind]⟩

theorem tallies_string : Tallies Counts.string (·.kind == .string) :=
  ⟨rfl, fun c v => by cases v <;> simp [Counts.add, Json.kind]⟩

theorem tallies_nested : Tallies Counts.nested isNested := by
  refine ⟨rfl, fun c v => ?_⟩
  cases v with
  | arr items => exact (Int.add_assoc c.object c.array 1).symm
  | obj members => exact Int.add_right_comm c.object 1 c.array
  | _ => exact (Int.add_zero _).symm

theorem tallies_otherString : Tallies (fun c => c.string - c.dateTime) isOtherString := by
  refine ⟨rfl, fun c v => ?_⟩
  cases v with
  | str s =>
      cases h : looksLikeDateTime s with
      | false =>
          simp only [Counts.add, isOtherString, h, Bool.not_false, Bool.false_eq_true, if_true,
            if_false]
          omega
      | true =>
          simp only [Counts.add, isOtherString, h, Bool.not_true, Bool.false_eq_true, if_true,
            if_false]
          omega
  | _ => exact (Int.add_zero _).symm

/-! ## Tallies by field -/

namespace FieldCounts

variable {fields : FieldCounts} {name : String}

/-- The tallies of a field, which have counted nothing if there are none. -/
def counts (fields : FieldCounts) (name : String) : Counts := (fields.lookup name).getD {}

theorem counts_cons (first : String) (c : Counts) (fields : FieldCounts) (name : String) :
    counts ((first, c) :: fields) name = if name = first then c else counts fields name := by
  rw [counts, List.lookup_cons]
  by_cases h : name = first
  · rw [if_pos h, beq_iff_eq.mpr h]
    rfl
  · rw [if_neg h, beq_eq_false_iff_ne.mpr h]
    rfl

theorem counts_change (fields : FieldCounts) (field : String) (f : Counts → Counts)
    (name : String) : (fields.change field f).counts name
      = if name = field then f (fields.counts field) else fields.counts name := by
  induction fields with
  | nil => rw [change, counts_cons]; rfl
  | cons p fields ih =>
      obtain ⟨first, c⟩ := p
      rw [change]
      by_cases hfirst : first = field
      · subst hfirst
        rw [if_pos rfl, counts_cons, counts_cons, counts_cons, if_pos rfl]
        by_cases h : name = first
        · rw [if_pos h, if_pos h]
        · rw [if_neg h, if_neg h, if_neg h]
      · rw [if_neg hfirst, counts_cons, counts_cons, counts_cons, if_neg (Ne.symm hfirst), ih]
        by_cases h : name = first
        · subst h
          rw [if_pos rfl, if_neg hfirst, if_pos rfl]
        · rw [if_neg h, if_neg h]

theorem names_change (fields : FieldCounts) (field : String) (f : Counts → Counts) :
    (fields.change field f).map Prod.fst
      = if field ∈ fields.map Prod.fst then fields.map Prod.fst
        else fields.map Prod.fst ++ [field] := by
  induction fields with
  | nil => rfl
  | cons p fields ih =>
      obtain ⟨first, c⟩ := p
      rw [change]
      by_cases hfirst : first = field
      · subst hfirst
        rw [if_pos rfl, List.map_cons, List.map_cons, if_pos List.mem_cons_self]
      · rw [if_neg hfirst, List.map_cons, List.map_cons, ih]
        by_cases h : field ∈ fields.map Prod.fst
        · rw [if_pos h, if_pos (List.mem_cons_of_mem _ h)]
        · have hnot : field ∉ first :: fields.map Prod.fst := fun hmem =>
            (List.mem_cons.mp hmem).elim (fun heq => hfirst heq.symm) h
          rw [if_neg h, if_neg hnot, List.cons_append]

theorem mem_names_change {field : String} {f : Counts → Counts} :
    name ∈ (fields.change field f).map Prod.fst ↔ name ∈ fields.map Prod.fst ∨ name = field := by
  rw [names_change]
  split
  · rename_i h
    exact ⟨.inl, fun hor => hor.elim id fun heq => heq ▸ h⟩
  · rw [List.mem_append, List.mem_singleton]

theorem nodup_names_change {field : String} {f : Counts → Counts}
    (h : (fields.map Prod.fst).Nodup) : ((fields.change field f).map Prod.fst).Nodup := by
  rw [names_change]
  split
  · exact h
  · rename_i hnot
    refine List.nodup_append.mpr ⟨h, List.nodup_singleton field, fun a ha b hb heq => hnot ?_⟩
    rwa [← List.mem_singleton.mp hb, ← heq]

end FieldCounts

/-! ## Members in turn -/

/-- The values that members of a name have, in order. -/
def valuesOf (members : Members) (name : String) : List Json :=
  members.filterMap fun m => if m.1 = name then some m.2 else none

/-- The statistics with some more members counted. -/
def FieldCounts.addAll (fields : FieldCounts) (members : Members) : FieldCounts :=
  members.foldl (fun fields m => fields.add m.1 m.2) fields

theorem counts_addAll (fields : FieldCounts) (members : Members) (name : String) :
    (fields.addAll members).counts name
      = (valuesOf members name).foldl Counts.add (fields.counts name) := by
  induction members generalizing fields with
  | nil => rfl
  | cons m members ih =>
      have hcounts := FieldCounts.counts_change fields m.1 (·.add m.2) name
      rw [FieldCounts.addAll, List.foldl_cons]
      refine (ih (fields.add m.1 m.2)).trans ?_
      rw [FieldCounts.add, hcounts, valuesOf, valuesOf, List.filterMap_cons]
      by_cases h : m.1 = name
      · rw [if_pos h.symm, if_pos h, List.foldl_cons, h]
      · rw [if_neg (Ne.symm h), if_neg h]

theorem mem_names_addAll {fields : FieldCounts} {members : Members} {name : String} :
    name ∈ (fields.addAll members).map Prod.fst ↔
      name ∈ fields.map Prod.fst ∨ name ∈ members.map Prod.fst := by
  induction members generalizing fields with
  | nil => exact ⟨.inl, fun h => h.elim id fun hnil => absurd hnil List.not_mem_nil⟩
  | cons m members ih =>
      rw [FieldCounts.addAll, List.foldl_cons]
      refine ih.trans ?_
      rw [FieldCounts.add, FieldCounts.mem_names_change, List.map_cons, List.mem_cons, or_assoc]

theorem nodup_names_addAll {fields : FieldCounts} (h : (fields.map Prod.fst).Nodup)
    (members : Members) : ((fields.addAll members).map Prod.fst).Nodup := by
  induction members generalizing fields with
  | nil => exact h
  | cons m members ih => exact ih (FieldCounts.nodup_names_change h)

/-! ## Records in turn -/

/-- The members at the top of a record. -/
def membersOf : Json → Members
  | .obj members => members
  | _ => []

/-- The statistics of some records. -/
def Statistics.of (records : List Json) : Statistics := records.foldl Statistics.observe {}

theorem fields_foldl (records : List Json) (st : Statistics) :
    (records.foldl Statistics.observe st).fields
      = st.fields.addAll (records.flatMap membersOf) := by
  induction records generalizing st with
  | nil => rfl
  | cons r records ih =>
      rw [List.foldl_cons, ih, List.flatMap_cons, FieldCounts.addAll, FieldCounts.addAll,
        List.foldl_append]
      cases r <;> rfl

theorem observed_foldl (records : List Json) (st : Statistics) :
    (records.foldl Statistics.observe st).observed = st.observed + records.length := by
  induction records generalizing st with
  | nil => rfl
  | cons r records ih =>
      have hone : (st.observe r).observed = st.observed + 1 := rfl
      rw [List.foldl_cons, ih, hone, List.length_cons]
      omega

theorem fields_of (records : List Json) :
    (Statistics.of records).fields = FieldCounts.addAll [] (records.flatMap membersOf) :=
  fields_foldl records {}

/-- The values of a field in some records. -/
def fieldValues (records : List Json) (name : String) : List Json :=
  valuesOf (records.flatMap membersOf) name

/-- The tallies of a field are those of its values. -/
theorem counts_observed (records : List Json) (name : String) :
    (Statistics.of records).fields.counts name = .of (fieldValues records name) := by
  rw [fields_of, counts_addAll]
  rfl

theorem nodup_names_observed (records : List Json) :
    ((Statistics.of records).fields.map Prod.fst).Nodup := by
  rw [fields_of]
  have hempty : (([] : FieldCounts).map Prod.fst).Nodup := List.nodup_nil
  exact nodup_names_addAll hempty _

theorem mem_names_observed {records : List Json} {name : String} :
    name ∈ (Statistics.of records).fields.map Prod.fst ↔
      ∃ r ∈ records, name ∈ (membersOf r).map Prod.fst := by
  rw [fields_of, mem_names_addAll, List.map_flatMap, List.mem_flatMap]
  exact or_iff_right List.not_mem_nil

theorem mem_fieldValues {records : List Json} {r : Json} {name : String} {v : Json}
    (hr : r ∈ records) (hv : (name, v) ∈ membersOf r) : v ∈ fieldValues records name := by
  refine List.mem_filterMap.mpr ⟨(name, v), List.mem_flatMap.mpr ⟨r, hr, hv⟩, ?_⟩
  rw [if_pos rfl]

example : (Statistics.of [.obj [("a", .int 1)], .obj [("b", .null), ("a", .str "x")]]).fields
    = [("a", { records := 2, number := 1, integer := 1, string := 1 }),
      ("b", { records := 1, null := 1 })] := by decide

end Staging.Schema
