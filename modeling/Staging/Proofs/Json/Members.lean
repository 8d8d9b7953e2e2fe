import Mathlib.Data.List.Induction
import Staging.Json.Basic
import Staging.Proofs.Json.Canonical

/-!
# Repeated member names

`Members.put` builds an object up one member at a time. What comes of it is said at once by
`Members.settle`: every name once, where it stood first, with the value it was given last.
-/

namespace Staging

namespace Members

/-- The value that a name was given last. -/
def last? (pairs : List (String × Json)) (name : String) : Option Json :=
  pairs.reverse.lookup name

/-- The names in the order in which they come up. -/
def firstNames (pairs : List (String × Json)) : List String :=
  (pairs.map Prod.fst).eraseDups

/-- Each name once, in its first place, with its last value. -/
def settle (pairs : List (String × Json)) : Members :=
  (firstNames pairs).map fun name => (name, (last? pairs name).getD .null)

/-! ## Putting a member -/

variable {f : String → Json} {name : String} {value : Json}

theorem put_of_not_mem {names : List String} (h : name ∉ names) :
    put (names.map fun n => (n, f n)) name value
      = (names.map fun n => (n, f n)) ++ [(name, value)] := by
  induction names with
  | nil => rfl
  | cons n rest ih =>
      rw [List.mem_cons, not_or] at h
      rw [List.map_cons, put, if_neg (Ne.symm h.1), ih h.2]
      rfl

theorem put_of_mem {names : List String} (hnodup : names.Nodup) (h : name ∈ names) :
    put (names.map fun n => (n, f n)) name value
      = names.map fun n => (n, if n = name then value else f n) := by
  induction names with
  | nil => exact absurd h List.not_mem_nil
  | cons n rest ih =>
      rw [List.nodup_cons] at hnodup
      rw [List.map_cons, List.map_cons, put]
      rcases List.mem_cons.mp h with rfl | hrest
      · have hother : ∀ m ∈ rest, m ≠ name := fun m hm heq => hnodup.1 (heq ▸ hm)
        rw [if_pos rfl, if_pos rfl]
        congr 1
        exact List.map_congr_left fun m hm => by rw [if_neg (hother m hm)]
      · have hne : n ≠ name := fun heq => hnodup.1 (heq ▸ hrest)
        rw [if_neg hne, if_neg hne, ih hnodup.2 hrest]

/-! ## Names -/

theorem firstNames_concat (pairs : List (String × Json)) (name : String) (value : Json) :
    firstNames (pairs ++ [(name, value)])
      = if name ∈ firstNames pairs then firstNames pairs else firstNames pairs ++ [name] := by
  have hmem : List.elem name (pairs.map Prod.fst) = true ↔ name ∈ firstNames pairs := by
    rw [firstNames, List.mem_eraseDups, List.elem_iff]
  rw [firstNames, List.map_append, List.eraseDups_append]
  by_cases h : name ∈ firstNames pairs
  · rw [if_pos h, List.map_cons, List.map_nil, List.removeAll, List.filter_cons, hmem.mpr h]
    simp [firstNames]
  · have hnot : List.elem name (pairs.map Prod.fst) = false :=
      Bool.eq_false_iff.mpr fun hc => h (hmem.mp hc)
    rw [if_neg h, List.map_cons, List.map_nil, List.removeAll, List.filter_cons, hnot]
    simp [firstNames, List.eraseDups_cons]

theorem nodup_firstNames (pairs : List (String × Json)) : (firstNames pairs).Nodup := by
  induction pairs using List.reverseRecOn with
  | nil => exact List.nodup_nil
  | append_singleton pairs p ih =>
      rw [firstNames_concat]
      split
      · exact ih
      · rename_i h
        exact List.nodup_append.mpr
          ⟨ih, List.pairwise_singleton _ _, fun a ha b hb heq =>
            h (List.mem_singleton.mp hb ▸ heq ▸ ha)⟩

theorem last?_concat (pairs : List (String × Json)) (name : String) (value : Json) (n : String) :
    last? (pairs ++ [(name, value)]) n = if n = name then some value else last? pairs n := by
  rw [last?, List.reverse_append, List.reverse_singleton, List.singleton_append,
    List.lookup_cons, last?]
  by_cases h : n = name
  · rw [if_pos h, beq_iff_eq.mpr h]
  · rw [if_neg h, beq_eq_false_iff_ne.mpr h]

/-! ## Members in turn -/

/-- What becomes of members written one after the other. -/
theorem ofPairs_eq_settle (pairs : List (String × Json)) : ofPairs pairs = settle pairs := by
  induction pairs using List.reverseRecOn with
  | nil => rfl
  | append_singleton pairs p ih =>
      obtain ⟨name, value⟩ := p
      have hstep : ofPairs (pairs ++ [(name, value)]) = put (ofPairs pairs) name value := by
        rw [ofPairs, List.foldl_append]
        rfl
      rw [hstep, ih, settle, settle, firstNames_concat]
      by_cases h : name ∈ firstNames pairs
      · rw [if_pos h, put_of_mem (nodup_firstNames pairs) h]
        refine List.map_congr_left fun n _ => ?_
        rw [last?_concat, apply_ite (Option.getD · Json.null)]
        rfl
      · rw [if_neg h, put_of_not_mem h, List.map_append]
        congr 1
        · refine List.map_congr_left fun n hn => ?_
          have hne : n ≠ name := fun heq => h (heq ▸ hn)
          rw [last?_concat, if_neg hne]
        · rw [List.map_cons, last?_concat, if_pos rfl]
          rfl

theorem names_settle (pairs : List (String × Json)) :
    (settle pairs).map Prod.fst = firstNames pairs := by
  rw [settle, List.map_map]
  exact List.map_id _

/-- What is kept of members that repeat names are members as they were given. -/
theorem mem_of_mem_settle {pairs : List (String × Json)} {m : String × Json}
    (h : m ∈ settle pairs) : m ∈ pairs := by
  obtain ⟨name, hname, rfl⟩ := List.mem_map.mp h
  cases hlast : last? pairs name with
  | none =>
      refine absurd ?_ (not_mem_of_lookup_eq_none hlast)
      rw [List.map_reverse, List.mem_reverse]
      exact List.mem_eraseDups.mp hname
  | some v => exact List.mem_reverse.mp (mem_of_lookup hlast)

example : settle [("a", .int 1), ("b", .null), ("a", .int 2)] = [("a", .int 2), ("b", .null)] := rfl

end Members

end Staging
