import Staging.Proofs.Schema.Arrival
import Staging.Proofs.Schema.Selection
import Staging.Schema.Collection

/-!
# A collector holds the tallies of what it was given

A walk that counts on its way counts the members of the record it begins with, and nothing below
them, and is then the walk over the canonical form (`countingWalk_root`). So a collector returns
each record in canonical form, and after any records its statistics are the tallies of their members
(`collect_tallies`).
-/

namespace Staging

namespace Json

variable {m : Type → Type} [Monad m] {count : String → Json → m Unit}
  {visit : String → Json → m Json}

/-! ## Counting on the way -/

/-- The walk over a member of the value that `pointer` names. -/
def walkMember (visit : String → Json → m Json) (pointer : String) (p : String × Json) :
    String × m Json :=
  (p.1, p.2.walk visit (stepDown pointer (memberToken p.1)))

/-- Members are walked over in turn, whether the walks are listed first or not. -/
theorem inTurn_walks [LawfulMonad m] (pointer : String) (members : Members) :
    inTurn (members.map (walkMember visit pointer)) = walkMembers visit pointer members := by
  induction members with
  | nil => rfl
  | cons p members ih =>
      rw [inTurn] at ih
      rw [inTurn, List.map_cons, List.mapM_cons, ih, walkMembers]
      simp only [walkMember, bind_assoc, pure_bind]

/-- Walks are put in order by the names of the members, so the members might as well have been put
in order before. -/
theorem inTurn_sorted [LawfulMonad m] (pointer : String) (members : Members) :
    inTurn (sortMembers (members.map (walkMember visit pointer)))
      = walkMembers visit pointer (sortMembers members) := by
  rw [← map_sortMembers (f := walkMember visit pointer) (fun _ => rfl), inTurn_walks]

mutual

/-- Below the record nothing is counted. -/
theorem countingWalk_below [LawfulMonad m] : ∀ (pointer : String) (depth : Nat) (v : Json),
    depth ≠ 0 → v.countingWalk count visit pointer depth = v.canonical.walk visit pointer
  | _, _, .null, _ | _, _, .bool _, _ | _, _, .int _, _ | _, _, .float _, _ | _, _, .str _, _ => rfl
  | pointer, depth, .arr items, _ => by
    rw [countingWalk, countingWalkItems_eq, canonical, walk]
  | pointer, depth, .obj members, hdepth => by
    rw [countingWalk, if_neg hdepth, memberWalks_eq, inTurn_sorted, canonical, walk]

theorem countingWalkItems_eq [LawfulMonad m] : ∀ (pointer : String) (depth n : Nat)
    (items : List Json), countingWalkItems count visit pointer (depth + 1) n items
      = walkItems visit pointer n (canonicalItems items)
  | _, _, _, [] => rfl
  | pointer, depth, n, v :: items => by
    rw [countingWalkItems, countingWalk_below _ _ v (Nat.succ_ne_zero depth), countingWalkItems_eq,
      canonicalItems, walkItems]

theorem memberWalks_eq [LawfulMonad m] : ∀ (pointer : String) (depth : Nat)
    (members : List (String × Json)), memberWalks count visit pointer (depth + 1) members
      = (canonicalMembers members).map (walkMember visit pointer)
  | _, _, [] => rfl
  | pointer, depth, (name, v) :: members => by
    rw [memberWalks, countingWalk_below _ _ v (Nat.succ_ne_zero depth), memberWalks_eq,
      canonicalMembers, List.map_cons, walkMember]

end

variable [LawfulMonad m]

open Schema (membersOf)

/-- A record's members are counted first, and then its canonical form is walked over. -/
theorem countingWalk_root (record : Json) :
    record.countingWalk count visit "" 0
      = ((membersOf record).forM fun p => count p.1 p.2) >>= fun _ =>
          record.canonical.walk visit "" := by
  have hnone : ∀ x : m Json, x = (([] : Members).forM fun p => count p.1 p.2) >>= fun _ => x :=
    fun x => (pure_bind () fun _ => x).symm
  cases record with
  | obj members =>
      rw [countingWalk, if_pos rfl, memberWalks_eq, inTurn_sorted, canonical, walk]
      rfl
  | arr items =>
      rw [countingWalk, countingWalkItems_eq, canonical]
      exact hnone _
  | _ => exact hnone _

mutual

/-- A walk that changes nothing returns the value. -/
theorem walk_pure : ∀ (pointer : String) (v : Json),
    v.walk (fun _ v => (pure v : m Json)) pointer = pure v
  | _, .null | _, .bool _ | _, .int _ | _, .float _ | _, .str _ => rfl
  | pointer, .arr items => by
    rw [walk, walkItems_pure, pure_bind]
  | pointer, .obj members => by
    rw [walk, walkMembers_pure, pure_bind]

theorem walkItems_pure : ∀ (pointer : String) (n : Nat) (items : List Json),
    walkItems (fun _ v => (pure v : m Json)) pointer n items = pure items
  | _, _, [] => rfl
  | pointer, n, v :: items => by
    rw [walkItems, walk_pure, pure_bind, walkItems_pure, pure_bind]

theorem walkMembers_pure : ∀ (pointer : String) (members : List (String × Json)),
    walkMembers (fun _ v => (pure v : m Json)) pointer members = pure members
  | _, [] => rfl
  | pointer, (name, v) :: members => by
    rw [walkMembers, walk_pure, pure_bind, walkMembers_pure, pure_bind]

end

end Json

namespace Schema

/-! ## Collecting -/

theorem run_countAll (members : Members) (s : Statistics) :
    (members.forM fun p => (modify fun s => { s with fields := s.fields.add p.1 p.2 } :
      StateM Statistics Unit)).run s = ((), { s with fields := s.fields.addAll members }) := by
  induction members generalizing s with
  | nil => rfl
  | cons p members ih => exact ih { s with fields := s.fields.add p.1 p.2 }

/-- A record comes back in canonical form, with its members counted. -/
theorem run_collect (record : Json) (s : Statistics) :
    (Statistics.collect record).run s = (record.canonical, s.observe record) := by
  have hobserve : s.observe record
      = { observed := s.observed + 1, fields := s.fields.addAll (membersOf record) } := by
    cases record <;> rfl
  rw [Statistics.collect, Json.countingWalk_root, Json.walk_pure, hobserve]
  simp only [StateT.run_bind, StateT.run_modify, run_countAll, StateT.run_pure]
  rfl

theorem run_collectAll (records : List Json) (s : Statistics) :
    (records.mapM Statistics.collect).run s
      = (records.map Json.canonical, records.foldl Statistics.observe s) := by
  induction records generalizing s with
  | nil => rfl
  | cons record records ih =>
      rw [List.mapM_cons, StateT.run_bind, run_collect, List.map_cons, List.foldl_cons]
      simp only [StateT.run_bind, ih]
      rfl

/-! ## Members of a name -/

/-- How many of the records have a member of that name with a value as said. -/
def countMembers (records : List Json) (name : String) (kind : Json → Bool) : Nat :=
  records.countP fun r => (r.member? name).any kind

def isUuidString : Json → Bool
  | .str s => isUuid s
  | _ => false

def isTimeString : Json → Bool
  | .str s => looksLikeDateTime s
  | _ => false

/-- What there is to count of the members of that name. -/
def tally (records : List Json) (name : String) : Counts where
  records := countMembers records name fun _ => true
  null := countMembers records name (·.kind == .null)
  boolean := countMembers records name (·.kind == .boolean)
  number := countMembers records name (·.kind == .integer)
    + countMembers records name (·.kind == .float)
  integer := countMembers records name (·.kind == .integer)
  floating := countMembers records name (·.kind == .float)
  string := countMembers records name (·.kind == .string)
  uuid := countMembers records name isUuidString
  dateTime := countMembers records name isTimeString
  object := countMembers records name (·.kind == .object)
  array := countMembers records name (·.kind == .array)

theorem valuesOf_of_nodup {members : Members} (h : (members.map Prod.fst).Nodup) (name : String) :
    valuesOf members name = (members.lookup name).toList := by
  induction members with
  | nil => rfl
  | cons p members ih =>
      rw [List.map_cons, List.nodup_cons] at h
      rw [valuesOf] at ih
      rw [valuesOf, List.filterMap_cons, List.lookup_cons, ih h.2]
      by_cases hname : name = p.1
      · subst hname
        have hnone : members.lookup p.1 = none := List.lookup_eq_none_iff.mpr fun q hq =>
          bne_iff_ne.mpr fun heq => h.1 (heq ▸ List.mem_map_of_mem hq)
        rw [if_pos rfl, beq_self_eq_true, hnone]
        rfl
      · rw [if_neg (Ne.symm hname), beq_eq_false_iff_ne.mpr hname]

/-- Where no record repeats a name, the values of a field are one from each record that has it. -/
theorem fieldValues_eq {records : List Json}
    (h : ∀ r ∈ records, ((membersOf r).map Prod.fst).Nodup) (name : String) :
    fieldValues records name = records.filterMap (·.member? name) := by
  induction records with
  | nil => rfl
  | cons r records ih =>
      have hvalues : valuesOf (membersOf r) name = (r.member? name).toList := by
        rw [valuesOf_of_nodup (h r List.mem_cons_self)]
        cases r <;> rfl
      have hmore := ih fun r hr => h r (List.mem_cons_of_mem _ hr)
      rw [fieldValues, valuesOf] at hmore
      rw [valuesOf] at hvalues
      rw [fieldValues, valuesOf, List.flatMap_cons, List.filterMap_append, hmore, hvalues,
        List.filterMap_cons]
      cases r.member? name <;> rfl

theorem countP_fieldValues {records : List Json}
    (h : ∀ r ∈ records, ((membersOf r).map Prod.fst).Nodup) (name : String) (kind : Json → Bool) :
    (fieldValues records name).countP kind = countMembers records name kind := by
  rw [fieldValues_eq h, List.countP_filterMap, countMembers]
  congr 1
  funext r
  cases r.member? name <;> rfl

/-! ## Every tally -/

theorem tallies_records : Tallies Counts.records (fun _ => true) :=
  ⟨rfl, fun c v => by cases v <;> simp [Counts.add]⟩

theorem tallies_null : Tallies Counts.null (·.kind == .null) :=
  ⟨rfl, fun c v => by cases v <;> simp [Counts.add, Json.kind]⟩

theorem tallies_integer : Tallies Counts.integer (·.kind == .integer) :=
  ⟨rfl, fun c v => by cases v <;> simp [Counts.add, Json.kind]⟩

theorem tallies_uuid : Tallies Counts.uuid isUuidString := by
  refine ⟨rfl, fun c v => ?_⟩
  cases v with
  | str s => rfl
  | _ => exact (Int.add_zero _).symm

theorem tallies_dateTime : Tallies Counts.dateTime isTimeString := by
  refine ⟨rfl, fun c v => ?_⟩
  cases v with
  | str s => rfl
  | _ => exact (Int.add_zero _).symm

/-- Every value is of just one kind. -/
theorem tallies_kinds : Tallies (fun c => c.null + c.boolean + c.integer + c.floating + c.string
    + c.object + c.array) (fun _ => true) :=
  ⟨rfl, fun c v => by cases v <;> simp [Counts.add] <;> omega⟩

/-- Numbers are whole or not. -/
theorem tallies_number_parts : Tallies (fun c => c.number - (c.integer + c.floating))
    (fun _ => false) :=
  ⟨rfl, fun c v => by cases v <;> simp [Counts.add] <;> omega⟩

theorem counts_eq_tally {records : List Json}
    (h : ∀ r ∈ records, ((membersOf r).map Prod.fst).Nodup) (name : String) :
    (Statistics.of records).fields.counts name = tally records name := by
  have heq : ∀ {count kind}, Tallies count kind →
      count (.of (fieldValues records name)) = countMembers records name kind := by
    intro count kind ht
    rw [ht.eq_countP, countP_fieldValues h]
  have hparts := tallies_number_parts.eq_countP (fieldValues records name)
  rw [List.countP_false, Function.const_apply, Int.natCast_zero] at hparts
  have hnumber : (Counts.of (fieldValues records name)).number
      = (Counts.of (fieldValues records name)).integer
        + (Counts.of (fieldValues records name)).floating := by omega
  rw [counts_observed, tally, ← heq tallies_records, ← heq tallies_null, ← heq tallies_boolean,
    ← heq tallies_integer, ← heq tallies_floating, ← hnumber, ← heq tallies_string,
    ← heq tallies_uuid, ← heq tallies_dateTime, ← heq tallies_object, ← heq tallies_array]

/-! ## What a collector holds -/

/-- Statistics that are the tallies of the members of some records. They have one entry for each
name that a record has a member of, and what is inside the members makes no difference. -/
structure Tallied (records : List Json) (s : Statistics) : Prop where
  observed : s.observed = records.length
  nodup : (s.fields.map Prod.fst).Nodup
  mem_iff : ∀ name c, (name, c) ∈ s.fields ↔
    (∃ r ∈ records, (r.member? name).isSome = true) ∧ c = tally records name
  kinds_sum : ∀ name c, (name, c) ∈ s.fields →
    c.null + c.boolean + c.integer + c.floating + c.string + c.object + c.array = c.records
  records_le : ∀ name c, (name, c) ∈ s.fields → c.records ≤ s.observed

theorem isSome_member?_iff (r : Json) (name : String) :
    (r.member? name).isSome = true ↔ name ∈ (membersOf r).map Prod.fst := by
  cases r with
  | obj members =>
      rw [Json.member?, Members.get?, List.lookup_isSome_iff, membersOf, List.mem_map]
      simp only [beq_iff_eq, eq_comm (a := name)]
  | _ => simp [Json.member?, membersOf]

theorem tallied_of {records : List Json}
    (h : ∀ r ∈ records, ((membersOf r).map Prod.fst).Nodup) :
    Tallied records (.of records) := by
  have hnodup := nodup_names_observed records
  have hmem : ∀ name c, (name, c) ∈ (Statistics.of records).fields ↔
      (∃ r ∈ records, (r.member? name).isSome = true) ∧ c = tally records name := by
    intro name c
    rw [mem_iff_counts hnodup, mem_names_observed, counts_eq_tally h, eq_comm (a := c)]
    simp only [isSome_member?_iff]
  have hvalues : ∀ name c, (name, c) ∈ (Statistics.of records).fields →
      c = .of (fieldValues records name) := by
    intro name c hc
    rw [← counts_observed, ((mem_iff_counts hnodup).mp hc).2]
  have hobserved : (Statistics.of records).observed = records.length :=
    (observed_foldl records {}).trans (Nat.zero_add _)
  refine ⟨hobserved, hnodup, hmem, ?_, ?_⟩
  · intro name c hc
    rw [hvalues name c hc, tallies_records.eq_countP]
    exact tallies_kinds.eq_countP _
  · intro name c hc
    rw [((hmem name c).mp hc).2, hobserved]
    exact Int.ofNat_le.mpr List.countP_le_length

/-- Whatever records a collector was given and is given further, each comes back in canonical form,
and the statistics are the tallies of all records so far. -/
theorem collect_tallies {before after : List Json}
    (h : ∀ r ∈ before ++ after, ((membersOf r).map Prod.fst).Nodup) :
    ∃ s s', (before.mapM Statistics.collect).run {} = (before.map Json.canonical, s) ∧
      Tallied before s ∧
      (after.mapM Statistics.collect).run s = (after.map Json.canonical, s') ∧
      Tallied (before ++ after) s' := by
  have hbefore : Tallied before (.of before) :=
    tallied_of fun r hr => h r (List.mem_append_left _ hr)
  have hafter : after.foldl Statistics.observe (.of before) = .of (before ++ after) :=
    List.foldl_append.symm
  refine ⟨.of before, .of (before ++ after), run_collectAll _ _, hbefore, ?_, tallied_of h⟩
  rw [run_collectAll, hafter]

/-- Names that read like pointers, one of them again further down. -/
def slashedNote : Json :=
  .obj [("a/b", .str "2020-01-02T03:04:05"), ("~1", .obj [("a/b", .bool true)])]

def numberedNote : Json :=
  .obj [("id", .null), ("a/b", .int 3), ("a", .obj [("b", .int 4)])]

theorem slashedNote_tallied :
    (∀ r ∈ [slashedNote] ++ [numberedNote], ((membersOf r).map Prod.fst).Nodup) ∧
    ∃ s s', ([slashedNote].mapM Statistics.collect).run {} = ([slashedNote].map Json.canonical, s) ∧
      Tallied [slashedNote] s ∧
      ([numberedNote].mapM Statistics.collect).run s = ([numberedNote].map Json.canonical, s') ∧
      ("a/b", { records := 2, number := 1, integer := 1, string := 1, dateTime := 1 })
        ∈ s'.fields := by
  have hnodup : ∀ r ∈ [slashedNote] ++ [numberedNote], ((membersOf r).map Prod.fst).Nodup := by
    decide
  obtain ⟨s, s', hbefore, hs, hafter, hs'⟩ := collect_tallies hnodup
  refine ⟨hnodup, s, s', hbefore, hs, hafter, (hs'.mem_iff _ _).mpr ⟨?_, by decide +kernel⟩⟩
  exact ⟨slashedNote, List.mem_cons_self, rfl⟩

end Schema

end Staging
