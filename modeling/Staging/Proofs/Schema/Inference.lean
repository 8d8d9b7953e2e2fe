import Mathlib.Data.List.Forall2
import Mathlib.Data.List.Nodup
import Staging.Proofs.Schema.Statistics
import Staging.Schema.Inference

/-!
# Inferred types fit

A type that was selected from tallies fits every value that was counted (`fits_of_selectType`), and
a schema that was inferred has one column for each field, with the type selected for it
(`infer_ok`).
-/

namespace Staging.Schema

/-! ## Selection -/

/-- The kinds of typed values that were counted. -/
def Counts.kinds (c : Counts) : List (String × Int) :=
  positive [("boolean", c.boolean), ("number", c.number), ("string", c.string)]

/-- What is known of tallies from which a type was selected. -/
inductive Selected (c : Counts) : ColumnType → Prop
  | boolean (number : c.number ≤ 0) (string : c.string ≤ 0) (nested : c.nested ≤ 0) :
    Selected c .boolean
  | bigint (boolean : c.boolean ≤ 0) (floating : c.floating ≤ 0) (string : c.string ≤ 0)
    (nested : c.nested ≤ 0) : Selected c .bigint
  | numeric (boolean : c.boolean ≤ 0) (string : c.string ≤ 0) (nested : c.nested ≤ 0) :
    Selected c .numeric
  | timestamptz (boolean : c.boolean ≤ 0) (number : c.number ≤ 0) (dateTime : c.string ≤ c.dateTime)
    (nested : c.nested ≤ 0) : Selected c .timestamptz
  | varchar (boolean : c.boolean ≤ 0) (number : c.number ≤ 0) : Selected c .varchar

/-- Booleans go with nothing else, and numbers only with themselves. -/
structure Compatible (c : Counts) : Prop where
  boolean : 0 < c.boolean → c.number ≤ 0 ∧ c.string ≤ 0 ∧ c.nested = 0
  number : 0 < c.number → c.string ≤ 0 ∧ c.nested = 0

theorem selectType_id (c : Counts) : selectType idField c = .ok .id := if_pos rfl

theorem compatible_iff (c : Counts) : Compatible c ↔
    ¬(1 < c.kinds.length ∨ c.nested ≠ 0 ∧ c.kinds ≠ [] ∧ c.string ≤ 0) := by
  have hparts : Compatible c ↔ (0 < c.boolean → c.number ≤ 0 ∧ c.string ≤ 0 ∧ c.nested = 0) ∧
      (0 < c.number → c.string ≤ 0 ∧ c.nested = 0) := ⟨fun h => ⟨h.1, h.2⟩, fun h => ⟨h.1, h.2⟩⟩
  rw [hparts]
  by_cases hboolean : 0 < c.boolean <;> by_cases hnumber : 0 < c.number <;>
    by_cases hstring : 0 < c.string <;>
    simp [Counts.kinds, positive, hboolean, hnumber, hstring] <;> omega

/-- A type that was selected excludes all values that are not of its kind. -/
theorem selected_of_selectType {field : String} {c : Counts} {type : ColumnType}
    (hfield : field ≠ idField) (h : selectType field c = .ok type) : Selected c type := by
  rw [selectType, if_neg hfield] at h
  simp only at h
  split at h
  · cases h
  · rename_i hkinds
    obtain ⟨hboolean, hnumber⟩ := (compatible_iff c).mpr hkinds
    split at h
    · rename_i hpos
      obtain rfl := Except.ok.inj h
      obtain ⟨hnumber, hstring, hnested⟩ := hboolean hpos
      exact .boolean hnumber hstring (Int.le_of_eq hnested)
    · rename_i hnoBoolean
      split at h
      · rename_i hpos
        obtain ⟨hstring, hnested⟩ := hnumber hpos
        split at h
        · obtain rfl := Except.ok.inj h
          exact .numeric (by omega) hstring (Int.le_of_eq hnested)
        · rename_i hwhole
          obtain rfl := Except.ok.inj h
          exact .bigint (by omega) (by omega) hstring (Int.le_of_eq hnested)
      · rename_i hnoNumber
        split at h
        · rename_i htimes
          obtain rfl := Except.ok.inj h
          exact .timestamptz (by omega) (by omega) (by omega) (by omega)
        · obtain rfl := Except.ok.inj h
          exact .varchar (by omega) (by omega)

/-! ## Fitting values -/

/-- The values that a column of a type is made for. Null fits every column, and every value that of
the identifier. -/
inductive Fits : ColumnType → Json → Prop
  | null (type : ColumnType) : Fits type .null
  | id (v : Json) : Fits .id v
  | boolean (b : Bool) : Fits .boolean (.bool b)
  | bigint (n : Int) : Fits .bigint (.int n)
  | integer (n : Int) : Fits .numeric (.int n)
  | float (x : Double) : Fits .numeric (.float x)
  | timestamptz {s : String} (h : looksLikeDateTime s = true) : Fits .timestamptz (.str s)
  | string (s : String) : Fits .varchar (.str s)
  | array (items : List Json) : Fits .varchar (.arr items)
  | object (members : Members) : Fits .varchar (.obj members)

/-- A type that was selected fits the values that were counted. -/
theorem fits_of_selected {values : List Json} {type : ColumnType} (h : Selected (.of values) type)
    {v : Json} (hv : v ∈ values) : Fits type v := by
  cases h with
  | boolean number string nested =>
      have hnumber := tallies_number.absent number hv
      have hstring := tallies_string.absent string hv
      have hnested := tallies_nested.absent nested hv
      cases v with
      | null => exact .null _
      | bool b => exact .boolean b
      | int _ | float _ => cases hnumber
      | str _ => cases hstring
      | arr _ | obj _ => cases hnested
  | bigint boolean floating string nested =>
      have hboolean := tallies_boolean.absent boolean hv
      have hfloating := tallies_floating.absent floating hv
      have hstring := tallies_string.absent string hv
      have hnested := tallies_nested.absent nested hv
      cases v with
      | null => exact .null _
      | bool _ => cases hboolean
      | int n => exact .bigint n
      | float _ => cases hfloating
      | str _ => cases hstring
      | arr _ | obj _ => cases hnested
  | numeric boolean string nested =>
      have hboolean := tallies_boolean.absent boolean hv
      have hstring := tallies_string.absent string hv
      have hnested := tallies_nested.absent nested hv
      cases v with
      | null => exact .null _
      | bool _ => cases hboolean
      | int n => exact .integer n
      | float x => exact .float x
      | str _ => cases hstring
      | arr _ | obj _ => cases hnested
  | timestamptz boolean number dateTime nested =>
      have hboolean := tallies_boolean.absent boolean hv
      have hnumber := tallies_number.absent number hv
      have hother := tallies_otherString.absent (Int.sub_nonpos_of_le dateTime) hv
      have hnested := tallies_nested.absent nested hv
      cases v with
      | null => exact .null _
      | bool _ => cases hboolean
      | int _ | float _ => cases hnumber
      | str s => exact .timestamptz (by simpa [isOtherString] using hother)
      | arr _ | obj _ => cases hnested
  | varchar boolean number =>
      have hboolean := tallies_boolean.absent boolean hv
      have hnumber := tallies_number.absent number hv
      cases v with
      | null => exact .null _
      | bool _ => cases hboolean
      | int _ | float _ => cases hnumber
      | str s => exact .string s
      | arr items => exact .array items
      | obj members => exact .object members

theorem fits_of_selectType {field : String} {values : List Json} {type : ColumnType}
    (h : selectType field (.of values) = .ok type) {v : Json} (hv : v ∈ values) : Fits type v := by
  by_cases hfield : field = idField
  · subst hfield
    obtain rfl := Except.ok.inj ((selectType_id _).symm.trans h)
    exact .id v
  · exact fits_of_selected (selected_of_selectType hfield h) hv

/-! ## Columns -/

/-- The column is that of the field, with the type selected from its tallies. -/
def IsColumnOf (c : Column) (field : String × Counts) : Prop :=
  c.source = field.1 ∧ selectType field.1 field.2 = .ok c.type

/-- What it takes to go past a field: its type was found, its column name was free, and the others
follow with the name taken. -/
theorem inferFrom_cons {t : Table} {taken : List (String × String)} {field : String} {c : Counts}
    {fields : FieldCounts} {columns : List Column}
    (h : inferFrom t taken ((field, c) :: fields) = ⟨columns, none⟩) :
    ∃ type more, selectType field c = .ok type ∧ taken.lookup (columnName field) = none ∧
      columns = ⟨columnName field, field, type⟩ :: more ∧
      inferFrom t ((columnName field, field) :: taken) fields = ⟨more, none⟩ := by
  rw [inferFrom] at h
  cases htype : selectType field c with
  | error conflict =>
      rw [htype] at h
      cases h
  | ok type =>
      rw [htype] at h
      simp only at h
      cases hfree : taken.lookup (columnName field) with
      | some first =>
          rw [hfree] at h
          cases h
      | none =>
          rw [hfree] at h
          obtain ⟨rfl, hfault⟩ := Inferred.mk.inj h
          exact ⟨type, _, rfl, rfl, rfl, by rw [← hfault]⟩

theorem inferFrom_ok {t : Table} {taken : List (String × String)} {fields : FieldCounts}
    {columns : List Column} (h : inferFrom t taken fields = ⟨columns, none⟩) :
    List.Forall₂ IsColumnOf columns fields := by
  induction fields generalizing taken columns with
  | nil =>
      obtain ⟨rfl, -⟩ := Inferred.mk.inj h
      exact .nil
  | cons p fields ih =>
      obtain ⟨type, more, htype, -, rfl, hmore⟩ := inferFrom_cons h
      exact .cons ⟨rfl, htype⟩ (ih hmore)

theorem exists_of_mem_forall₂ {α β : Type} {R : α → β → Prop} {as : List α} {bs : List β}
    (h : List.Forall₂ R as bs) {a : α} (ha : a ∈ as) : ∃ b ∈ bs, R a b := by
  induction h with
  | nil => exact absurd ha List.not_mem_nil
  | cons hab _ ih =>
      rcases List.mem_cons.mp ha with rfl | ha
      · exact ⟨_, List.mem_cons_self, hab⟩
      · obtain ⟨b, hb, hr⟩ := ih ha
        exact ⟨b, List.mem_cons_of_mem _ hb, hr⟩

theorem infer_sources {t : Table} {fields : FieldCounts} {columns : List Column}
    (h : infer t fields = ⟨columns, none⟩) :
    columns.map (·.source) = (Json.sortMembers fields).map Prod.fst := by
  rw [← List.forall₂_eq_eq_eq, List.forall₂_map_left_iff, List.forall₂_map_right_iff]
  exact (inferFrom_ok h).imp fun _ _ hc => hc.1

/-- A schema that was inferred has one column for each field. -/
theorem infer_ok {t : Table} {fields : FieldCounts} {columns : List Column}
    (h : infer t fields = ⟨columns, none⟩) (hfields : (fields.map Prod.fst).Nodup) :
    (columns.map (·.source)).Perm (fields.map Prod.fst) ∧
      ∀ c ∈ columns, selectType c.source (fields.counts c.source) = .ok c.type := by
  have hperm := Json.sortMembers_perm fields
  refine ⟨infer_sources h ▸ hperm.map Prod.fst, fun c hc => ?_⟩
  obtain ⟨p, hp, hsource, htype⟩ := exists_of_mem_forall₂ (inferFrom_ok h) hc
  have hlookup := (Members.lookup_eq_some_iff hfields).mpr (hperm.mem_iff.mp hp)
  rw [hsource, FieldCounts.counts, hlookup]
  exact hsource ▸ htype

end Staging.Schema
