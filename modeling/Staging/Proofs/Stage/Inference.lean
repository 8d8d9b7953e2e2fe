import Staging.Proofs.Schema.Columns
import Staging.Proofs.Schema.MemberOrder
import Staging.Proofs.Stage.Course

/-!
# A schema, or its first fault

Inference goes through the fields in order and keeps the names in use. A field offends if no type
can be selected for it, or if its column name is in use; inference ends at the first one that does
(`inferFrom_fault`), and if there is none it finds a column for each field. Only then is anything
added to the table (`buildSchema_verdict`).
-/

namespace Staging.Schema

variable {t : Table} {used : List (String × String)} {fields before after : FieldCounts}
  {field : String} {c : Counts} {fault : InferenceFault}

/-! ## Fields that offend -/

/-- The names that fields take, and the fields they belong to. -/
def claims (fields : FieldCounts) : List (String × String) :=
  fields.map fun p => (columnName p.1, p.1)

/-- The names that are in use from the start. -/
def reservedNames : List (String × String) := reservedColumns.map (·, "(reserved)")

/-- The fault of a field when these names are in use. Values in conflict are found before a name in
use. -/
inductive Offends (t : Table) (used : List (String × String)) (field : String) (c : Counts) :
    InferenceFault → Prop
  | kinds {conflict : KindConflict} (h : selectType field c = .error conflict) :
    Offends t used field c (.kinds t.name t.sourcePath conflict)
  | sameColumn {type : ColumnType} {first : String} (htype : selectType field c = .ok type)
    (h : (columnName field, first) ∈ used) :
    Offends t used field c (.sameColumn t.name first field (columnName field))

/-- No field offends after those before it. -/
def Clear (t : Table) (used : List (String × String)) (fields : FieldCounts) : Prop :=
  ∀ before field c after fault, fields = before ++ (field, c) :: after →
    ¬Offends t (used ++ claims before) field c fault

theorem Offends.congr {used' : List (String × String)} (h : Offends t used field c fault)
    (hused : ∀ p, p ∈ used → p ∈ used') : Offends t used' field c fault := by
  cases h with
  | kinds h => exact .kinds h
  | sameColumn htype h => exact .sameColumn htype (hused _ h)

theorem not_offends_iff : (∀ fault, ¬Offends t used field c fault) ↔
    (∃ type, selectType field c = .ok type) ∧ columnName field ∉ used.map Prod.fst := by
  constructor
  · intro h
    cases htype : selectType field c with
    | error conflict => exact absurd (.kinds htype) (h _)
    | ok type =>
        refine ⟨⟨type, rfl⟩, fun hmem => ?_⟩
        obtain ⟨⟨_, first⟩, hp, rfl⟩ := List.mem_map.mp hmem
        exact h _ (.sameColumn htype hp)
  · rintro ⟨⟨type, htype⟩, hfree⟩ fault hoffends
    cases hoffends with
    | kinds h => cases htype.symm.trans h
    | sameColumn _ h => exact hfree (List.mem_map_of_mem h)

theorem names_claims (fields : FieldCounts) :
    (claims fields).map Prod.fst = (fields.map Prod.fst).map columnName := by
  rw [claims, List.map_map, List.map_map]
  rfl

theorem names_reservedNames : reservedNames.map Prod.fst = reservedColumns := by
  rw [reservedNames, List.map_map]
  exact List.map_id _

/-- The names in use behind a field. -/
theorem mem_used_cons {p : String × String} :
    p ∈ (columnName field, field) :: used ++ claims before ↔
      p ∈ used ++ claims ((field, c) :: before) := by
  simp only [claims, List.map_cons, List.cons_append, List.mem_cons, List.mem_append]
  tauto

/-! ## Inference ends at the first of them -/

/-- A field that is gone past leaves its name in use. -/
theorem inferFrom_past {type : ColumnType} (htype : selectType field c = .ok type)
    (hfree : used.lookup (columnName field) = none) (fields : FieldCounts) :
    inferFrom t used ((field, c) :: fields)
      = ⟨⟨columnName field, field, type⟩
          :: (inferFrom t ((columnName field, field) :: used) fields).columns,
        (inferFrom t ((columnName field, field) :: used) fields).fault⟩ := by
  rw [inferFrom, htype]
  simp only [hfree]

/-- A fault is that of a field which offends, and inference goes past the fields before it. -/
theorem inferFrom_fault (h : (inferFrom t used fields).fault = some fault) :
    ∃ before field c after, fields = before ++ (field, c) :: after ∧
      (inferFrom t used before).fault = none ∧
      Offends t (used ++ claims before) field c fault := by
  induction fields generalizing used with
  | nil => cases h
  | cons p fields ih =>
      obtain ⟨field, c⟩ := p
      cases htype : selectType field c with
      | error conflict =>
          rw [inferFrom, htype] at h
          obtain rfl := Option.some.inj h
          exact ⟨[], field, c, fields, rfl, rfl, .kinds htype⟩
      | ok type =>
          cases hfree : used.lookup (columnName field) with
          | some first =>
              rw [inferFrom, htype] at h
              simp only [hfree] at h
              obtain rfl := Option.some.inj h
              refine ⟨[], field, c, fields, rfl, rfl, .sameColumn htype ?_⟩
              exact List.mem_append_left _ (Members.mem_of_lookup hfree)
          | none =>
              rw [inferFrom_past htype hfree] at h
              obtain ⟨before, field', c', after, rfl, hbefore, hoffends⟩ := ih h
              refine ⟨(field, c) :: before, field', c', after, rfl, ?_, ?_⟩
              · rw [inferFrom_past htype hfree, hbefore]
              · exact hoffends.congr fun _ => mem_used_cons.mp

/-- Where inference goes past all fields, none of them offends. -/
theorem clear_of_inferFrom (h : (inferFrom t used fields).fault = none) : Clear t used fields := by
  induction fields generalizing used with
  | nil =>
      intro before field c after fault hsplit
      exact absurd hsplit.symm (List.append_ne_nil_of_right_ne_nil _ (List.cons_ne_nil _ _))
  | cons p fields ih =>
      obtain ⟨field, c⟩ := p
      have hinfer : inferFrom t used ((field, c) :: fields)
          = ⟨(inferFrom t used ((field, c) :: fields)).columns, none⟩ := by rw [← h]
      obtain ⟨type, more, htype, hfree, -, hmore⟩ := inferFrom_cons hinfer
      have hrest : Clear t ((columnName field, field) :: used) fields := ih (by rw [hmore])
      intro before field' c' after fault hsplit hoffends
      cases before with
      | nil =>
          obtain ⟨hp, rfl⟩ := List.cons.inj hsplit
          obtain ⟨rfl, rfl⟩ := Prod.mk.inj hp
          rw [claims, List.map_nil, List.append_nil] at hoffends
          have hunused := Members.not_mem_of_lookup_eq_none hfree
          exact not_offends_iff.mpr ⟨⟨type, htype⟩, hunused⟩ _ hoffends
      | cons p before =>
          obtain ⟨rfl, rfl⟩ := List.cons.inj hsplit
          exact hrest before field' c' after fault rfl
            (hoffends.congr fun _ => mem_used_cons.mpr)

/-! ## Fields that cannot have columns together -/

/-- Some field has no type or a reserved name, or two fields have one name. -/
inductive Faulty (fields : FieldCounts) : Prop
  | kinds {field : String} {c : Counts} {conflict : KindConflict} (h : (field, c) ∈ fields)
    (hkinds : selectType field c = .error conflict)
  | reserved {field : String} (h : field ∈ fields.map Prod.fst)
    (hname : columnName field ∈ reservedColumns)
  | sameColumn {field other : String} (h : field ∈ fields.map Prod.fst)
    (hother : other ∈ fields.map Prod.fst) (hne : other ≠ field)
    (hname : columnName other = columnName field)

theorem faulty_of_offends (hnodup : ((before ++ (field, c) :: after).map Prod.fst).Nodup)
    (h : Offends t (reservedNames ++ claims before) field c fault) :
    Faulty (before ++ (field, c) :: after) := by
  have hmem : (field, c) ∈ before ++ (field, c) :: after :=
    List.mem_append_right _ List.mem_cons_self
  cases h with
  | kinds h => exact .kinds hmem h
  | sameColumn _ h =>
      rcases List.mem_append.mp h with hreserved | hclaimed
      · obtain ⟨name, hname, heq⟩ := List.mem_map.mp hreserved
        obtain ⟨rfl, -⟩ := Prod.mk.inj heq
        exact .reserved (List.mem_map_of_mem hmem) hname
      · obtain ⟨⟨other, c'⟩, hother, heq⟩ := List.mem_map.mp hclaimed
        obtain ⟨hname, rfl⟩ := Prod.mk.inj heq
        have hne : other ≠ field := by
          rw [List.map_append, List.nodup_append] at hnodup
          exact hnodup.2.2 other (List.mem_map_of_mem hother) field List.mem_cons_self
        exact .sameColumn (List.mem_map_of_mem hmem)
          (List.mem_map_of_mem (List.mem_append_left _ hother)) hne hname

/-- What is known of a field that does not offend. -/
theorem Clear.at (h : Clear t reservedNames fields)
    (hsplit : fields = before ++ (field, c) :: after) :
    (∃ type, selectType field c = .ok type) ∧ columnName field ∉ reservedColumns ∧
      ∀ other ∈ before.map Prod.fst, columnName other ≠ columnName field := by
  obtain ⟨htype, hfree⟩ := not_offends_iff.mp fun fault => h before field c after fault hsplit
  rw [List.map_append, names_reservedNames, names_claims, List.mem_append, not_or] at hfree
  refine ⟨htype, hfree.1, fun other hother hname => hfree.2 ?_⟩
  exact hname ▸ List.mem_map_of_mem hother

theorem not_faulty_of_clear (h : Clear t reservedNames fields) : ¬Faulty fields := by
  intro hfaulty
  cases hfaulty with
  | kinds hmem hkinds =>
      obtain ⟨before, after, hsplit⟩ := List.append_of_mem hmem
      obtain ⟨type, htype⟩ := (h.at hsplit).1
      cases htype.symm.trans hkinds
  | reserved hmem hname =>
      obtain ⟨⟨field, c⟩, hp, rfl⟩ := List.mem_map.mp hmem
      obtain ⟨before, after, hsplit⟩ := List.append_of_mem hp
      exact (h.at hsplit).2.1 hname
  | sameColumn hmem hother hne hname =>
      -- of the two fields the later one offends
      obtain ⟨⟨field, c⟩, hp, rfl⟩ := List.mem_map.mp hmem
      obtain ⟨⟨other, c'⟩, hp', rfl⟩ := List.mem_map.mp hother
      obtain ⟨before, after, hsplit⟩ := List.append_of_mem hp
      rw [hsplit, List.mem_append, List.mem_cons] at hp'
      rcases hp' with hbefore | heq | hafter
      · exact (h.at hsplit).2.2 other (List.mem_map_of_mem hbefore) hname
      · exact hne (Prod.mk.inj heq).1
      · obtain ⟨middle, rest, rfl⟩ := List.append_of_mem hafter
        rw [← List.cons_append, ← List.append_assoc] at hsplit
        have hfield : (field, c) ∈ before ++ (field, c) :: middle :=
          List.mem_append_right _ List.mem_cons_self
        exact (h.at hsplit).2.2 field (List.mem_map_of_mem hfield) hname.symm

/-! ## Schemas -/

/-- A column for each of the fields, in their order. -/
structure IsSchema (fields : FieldCounts) (columns : List Column) : Prop where
  fields : List.Forall₂ (fun (c : Column) p => c.source = p.1 ∧ c.name = columnName p.1 ∧
    selectType p.1 p.2 = .ok c.type) columns fields
  type_eq_id_iff : ∀ c ∈ columns, c.type = .id ↔ c.source = idField
  nodup : (columns.map (·.name)).Nodup
  free : ∀ c ∈ columns, c.name ∉ reservedColumns

theorem isSchema_of_infer {columns : List Column} (h : infer t fields = ⟨columns, none⟩) :
    IsSchema (Json.sortMembers fields) columns where
  fields := by
    have hnamed := (List.forall₂_and_left _ _).mpr ⟨(infer_named h).name_eq, inferFrom_ok h⟩
    exact hnamed.imp fun c p ⟨hname, hsource, htype⟩ => ⟨hsource, hsource ▸ hname, htype⟩
  type_eq_id_iff _ hc := infer_type_eq_id_iff h hc
  nodup := (infer_named h).nodup
  free := (infer_named h).free

/-! ## What a fault shows -/

theorem selectType_error {conflict : KindConflict} (h : selectType field c = .error conflict) :
    conflict.field = field := by
  unfold selectType at h
  split at h
  · cases h
  · simp only at h
    split at h
    · obtain rfl := Except.error.inj h
      rfl
    · -- all other branches select a type
      repeat' split at h
      all_goals cases h

/-- The message has the field in double quotes. -/
def Names (message field : String) : Prop :=
  ∃ lead rest, message = lead ++ "\"" ++ field ++ "\"" ++ rest

theorem Names.behind {message : String} (h : Names message field) (lead : String) :
    Names (lead ++ message) field := by
  obtain ⟨first, rest, rfl⟩ := h
  exact ⟨lead ++ first, rest, by simp only [String.append_assoc]⟩

theorem append_joined {a b ab : String} (h : a ++ b = ab) (rest : String) :
    a ++ (b ++ rest) = ab ++ rest := by
  rw [← String.append_assoc, h]

theorem names_conflict (conflict : KindConflict) : Names conflict.message conflict.field := by
  unfold KindConflict.message
  generalize ", ".intercalate _ = shown
  have hlead : "Inconsistent data types in field " ++ "\""
      = "Inconsistent data types in field \"" := by simp
  have hrest : "\"" ++ ": " = "\": " := by simp
  refine ⟨"Inconsistent data types in field ", ": " ++ shown, ?_⟩
  simp only [String.append_assoc, append_joined hlead, append_joined hrest]

/-- A fault shows the field that offends. -/
theorem names_offending (h : Offends t used field c fault) : Names fault.message field := by
  cases h with
  | @kinds conflict h =>
      have hnames := (names_conflict conflict).behind (t.name ++ " (" ++ t.sourcePath ++ "): ")
      rwa [selectType_error h] at hnames
  | @sameColumn _ first htype h =>
      have hlead : "\" and " ++ "\"" = "\" and \"" := by simp
      have hrest : "\"" ++ " both map to column \"" = "\" both map to column \"" := by simp
      refine ⟨t.name ++ ": fields \"" ++ first ++ "\" and ",
        " both map to column \"" ++ columnName field ++ "\"", ?_⟩
      simp only [InferenceFault.message, String.append_assoc, append_joined hlead,
        append_joined hrest]

/-! ## The verdict on all fields -/

/-- What inference finds for the fields in their order: a schema, or the fault of the first field
that offends. -/
inductive Verdict (t : Table) (fields : FieldCounts) : Inferred → Prop
  | schema {columns : List Column} (hclear : ¬Faulty fields) (hschema : IsSchema fields columns) :
    Verdict t fields ⟨columns, none⟩
  | fault {before after : FieldCounts} {field : String} {c : Counts} {columns : List Column}
    {fault : InferenceFault} (hfaulty : Faulty fields)
    (hsplit : fields = before ++ (field, c) :: after) (hclear : Clear t reservedNames before)
    (hoffends : Offends t (reservedNames ++ claims before) field c fault)
    (hnames : Names fault.message field) :
    Verdict t fields ⟨columns, some fault⟩

theorem infer_verdict (t : Table) {fields : FieldCounts} (hfields : (fields.map Prod.fst).Nodup) :
    Verdict t (Json.sortMembers fields) (infer t fields) := by
  have hperm := Json.sortMembers_perm fields
  cases hinfer : infer t fields with
  | mk columns fault =>
      cases fault with
      | none =>
          have hclear : Clear t reservedNames (Json.sortMembers fields) :=
            clear_of_inferFrom (congrArg Inferred.fault hinfer)
          exact .schema (not_faulty_of_clear hclear) (isSchema_of_infer hinfer)
      | some fault =>
          have hfault : (inferFrom t reservedNames (Json.sortMembers fields)).fault = some fault :=
            congrArg Inferred.fault hinfer
          obtain ⟨before, field, c, after, hsplit, hbefore, hoffends⟩ := inferFrom_fault hfault
          have hnodup := (hperm.map Prod.fst).nodup_iff.mpr hfields
          rw [hsplit] at hnodup
          refine .fault ?_ hsplit (clear_of_inferFrom hbefore) hoffends (names_offending hoffends)
          exact hsplit ▸ faulty_of_offends hnodup hoffends

theorem namesOrdered_sortMembers {α : Type} {members : List (String × α)}
    (h : (members.map Prod.fst).Nodup) :
    Json.NamesOrdered ((Json.sortMembers members).map Prod.fst) := by
  refine Json.namesOrdered_of_pairwise ?_ (List.pairwise_map.mpr (Json.sortMembers_pairwise _))
  exact ((Json.sortMembers_perm members).map Prod.fst).nodup_iff.mpr h

end Staging.Schema

namespace Staging.Stage

open Schema

/-- Fields get a column each, the identifier first and the others by name, unless some of them
cannot have columns together. Then the first to offend is named and the table stays as it is. -/
theorem buildSchema_verdict {statistics : Statistics}
    (hfields : (statistics.fields.map Prod.fst).Nodup) (p : Session Progress) :
    ∃ (ordered : FieldCounts) (inferred : Inferred), ordered.Perm statistics.fields ∧
      Json.NamesOrdered (ordered.map Prod.fst) ∧ Verdict p.own.table ordered inferred ∧
      match inferred.fault with
      | none =>
        ((inferColumns p.own.table statistics.fields).run p).1 = .ok inferred.columns ∧
        ((Stager.buildSchema statistics).run p).1 = .ok () ∧
        ((Stager.buildSchema statistics).run p).2.own
          = { p.own with table.columns := p.own.table.columns ++ inferred.columns }
      | some fault =>
        ((inferColumns p.own.table statistics.fields).run p).1 = .error (.schema fault) ∧
        ((Stager.buildSchema statistics).run p).1 = .error (.schema fault) ∧
        ((Stager.buildSchema statistics).run p).2.own = p.own := by
  refine ⟨Json.sortMembers statistics.fields, infer p.own.table statistics.fields,
    Json.sortMembers_perm _, namesOrdered_sortMembers hfields, infer_verdict _ hfields, ?_⟩
  obtain ⟨p₁, -, hreturned⟩ := run_inferColumns p.own.table statistics.fields p
  obtain ⟨p₂, -, hown, hbuilt⟩ := run_buildSchema statistics p
  rw [learnt] at hown
  rw [hreturned, hbuilt]
  cases hfault : (infer p.own.table statistics.fields).fault with
  | none =>
      rw [hfault, Option.isNone_none, if_pos rfl] at hown
      exact ⟨rfl, rfl, hown⟩
  | some fault =>
      rw [hfault, Option.isNone_some, if_neg Bool.false_ne_true, List.append_nil] at hown
      exact ⟨rfl, rfl, hown⟩

/-- Two fields with one column name, and a third whose values are in conflict. -/
def collidingFields : Statistics where
  fields := [("first_name", { string := 1 }), ("zip", { string := 1, number := 1 }),
    ("id", { string := 1 }), ("firstName", { string := 1 })]

def collidingProgress : Session Progress where
  own :=
    { table :=
        { name := "users", sourcePath := "/users", moduleName := "mod-users"
          columns := [⟨"id", "id", .id⟩] } }

theorem collidingFields_refused : (collidingFields.fields.map Prod.fst).Nodup ∧
    ∃ field fault,
      ((Stager.buildSchema collidingFields).run collidingProgress).1 = .error (.schema fault) ∧
      Names fault.message field ∧
      ((Stager.buildSchema collidingFields).run collidingProgress).2.own
        = collidingProgress.own := by
  have hfields : (collidingFields.fields.map Prod.fst).Nodup := by decide
  obtain ⟨ordered, inferred, hperm, -, hverdict, hrun⟩ :=
    buildSchema_verdict hfields collidingProgress
  have hname : columnName "firstName" = columnName "first_name" := by decide +kernel
  have hfaulty : Faulty ordered :=
    .sameColumn ((hperm.map Prod.fst).mem_iff.mpr (by decide))
      ((hperm.map Prod.fst).mem_iff.mpr (by decide)) (by decide) hname
  cases hverdict with
  | schema hclear => exact absurd hfaulty hclear
  | fault _ _ _ _ hnames => exact ⟨hfields, _, _, hrun.2.1, hnames, hrun.2.2⟩

end Staging.Stage
