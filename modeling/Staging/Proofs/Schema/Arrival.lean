import Mathlib.Data.List.Forall2
import Mathlib.Data.List.Flatten
import Mathlib.Data.List.Nodup
import Staging.Proofs.Schema.Statistics
import Staging.Schema.Inference

/-!
# In whatever order records arrive

Tallies go up by one value at a time, so it does not matter which value is counted first. The
statistics of records that come in another order, their members rearranged, are therefore the same
tallies of the same fields, and the same schema is inferred from them (`infer_rearranged`).
-/

namespace Staging.Schema

/-- The same value, but for the order of members at every level. -/
inductive Rearranged : Json → Json → Prop
  | same (v : Json) : Rearranged v v
  | array {items others : List Json} (h : List.Forall₂ Rearranged items others) :
    Rearranged (.arr items) (.arr others)
  | object {members middle others : Members}
    (hnames : members.map Prod.fst = middle.map Prod.fst)
    (hvalues : List.Forall₂ Rearranged (members.map Prod.snd) (middle.map Prod.snd))
    (hperm : middle.Perm others) : Rearranged (.obj members) (.obj others)

/-- The same records in any order, each with its members in any order. -/
def SameRecords (records others : List Json) : Prop :=
  ∃ middle, records.Perm middle ∧ List.Forall₂ Rearranged middle others

/-! ## What is counted of a record -/

/-- The value without what it holds. -/
def hollow : Json → Json
  | .arr _ => .arr []
  | .obj _ => .obj []
  | v => v

/-- The members at the top of a record, as far as they are counted. -/
def outline (record : Json) : Members :=
  (membersOf record).map fun m => (m.1, hollow m.2)

theorem add_hollow (c : Counts) (v : Json) : c.add (hollow v) = c.add v := by
  cases v <;> rfl

theorem addAll_hollow (fields : FieldCounts) (members : Members) :
    fields.addAll (members.map fun m => (m.1, hollow m.2)) = fields.addAll members := by
  unfold FieldCounts.addAll
  rw [List.foldl_map]
  simp only [FieldCounts.add, add_hollow]

theorem fields_of_outlines (records : List Json) :
    (Statistics.of records).fields = FieldCounts.addAll [] (records.flatMap outline) := by
  rw [fields_of, ← addAll_hollow, List.map_flatMap]
  rfl

theorem hollow_rearranged {v w : Json} (h : Rearranged v w) : hollow v = hollow w := by
  cases h <;> rfl

theorem hollows_rearranged {values others : List Json} (h : List.Forall₂ Rearranged values others) :
    values.map hollow = others.map hollow := by
  induction h with
  | nil => rfl
  | cons hv _ ih => rw [List.map_cons, List.map_cons, hollow_rearranged hv, ih]

theorem outline_eq_zip (members : Members) : outline (.obj members)
    = (members.map Prod.fst).zip ((members.map Prod.snd).map hollow) := by
  rw [List.map_map, List.zip_map']
  rfl

theorem outline_rearranged {r r' : Json} (h : Rearranged r r') :
    (outline r).Perm (outline r') := by
  cases h with
  | same => exact .refl _
  | array => exact .refl _
  | object hnames hvalues hperm =>
      rw [outline_eq_zip, hnames, hollows_rearranged hvalues, ← outline_eq_zip]
      exact hperm.map _

theorem outlines_perm {records others : List Json} (h : SameRecords records others) :
    (records.flatMap outline).Perm (others.flatMap outline) := by
  obtain ⟨middle, hperm, hmiddle⟩ := h
  refine (hperm.flatMap_right outline).trans ?_
  clear hperm
  induction hmiddle with
  | nil => exact .refl _
  | cons hr _ ih => exact (outline_rearranged hr).append ih

/-! ## One order is as good as another -/

theorem add_right_comm (c : Counts) (v w : Json) : (c.add v).add w = (c.add w).add v := by
  cases v <;> cases w <;> simp [Counts.add, Int.add_right_comm]

/-- Fields that do not repeat a name are their names, each with its tallies. -/
theorem mem_iff_counts {fields : FieldCounts} (h : (fields.map Prod.fst).Nodup) {name : String}
    {c : Counts} : (name, c) ∈ fields ↔ name ∈ fields.map Prod.fst ∧ fields.counts name = c := by
  have hcounts : ∀ c', (name, c') ∈ fields → fields.counts name = c' := by
    intro c' hc
    rw [FieldCounts.counts, (Members.lookup_eq_some_iff h).mpr hc]
    rfl
  constructor
  · exact fun hc => ⟨List.mem_map_of_mem hc, hcounts c hc⟩
  · rintro ⟨hname, rfl⟩
    obtain ⟨⟨_, c'⟩, hc, rfl⟩ := List.mem_map.mp hname
    rwa [hcounts c' hc]

/-- Members in another order give the same tallies for the same fields. -/
theorem addAll_perm {members others : Members} (h : members.Perm others) :
    (FieldCounts.addAll [] members).Perm (FieldCounts.addAll [] others) := by
  have hempty : (([] : FieldCounts).map Prod.fst).Nodup := List.nodup_nil
  have hnodup := nodup_names_addAll hempty members
  have hnodup' := nodup_names_addAll hempty others
  have hcounts : ∀ name, (FieldCounts.addAll [] members).counts name
      = (FieldCounts.addAll [] others).counts name := by
    intro name
    rw [counts_addAll, counts_addAll]
    exact (h.filterMap _).foldl_eq' (fun v _ w _ c => add_right_comm c v w) _
  have hnames : ∀ name, name ∈ (FieldCounts.addAll [] members).map Prod.fst ↔
      name ∈ (FieldCounts.addAll [] others).map Prod.fst := by
    intro name
    rw [mem_names_addAll, mem_names_addAll, (h.map Prod.fst).mem_iff]
  refine (List.perm_ext_iff_of_nodup (hnodup.of_map _) (hnodup'.of_map _)).mpr ?_
  rintro ⟨name, c⟩
  rw [mem_iff_counts hnodup, mem_iff_counts hnodup', hnames, hcounts]

/-- The schema depends on the records alone. -/
theorem infer_rearranged (t : Table) {records others : List Json} (h : SameRecords records others) :
    infer t (Statistics.of records).fields = infer t (Statistics.of others).fields := by
  have hperm := addAll_perm (outlines_perm h)
  rw [← fields_of_outlines, ← fields_of_outlines] at hperm
  unfold infer
  rw [Json.sortMembers_eq_of_perm hperm (nodup_names_observed records)]

end Staging.Schema
