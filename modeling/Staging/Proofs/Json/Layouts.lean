import Staging.Proofs.Json.RoundTrip
import Staging.Proofs.Schema.MemberOrder

/-!
# One value in two layouts

A layout that writes less between the parts of a value writes a part of what the other does, at
every depth of nesting (`chars_sublist`), so its text is no longer, nor is what comes of it when
characters are escaped. And if no name repeats, every text is read back as the value itself
(`parse_render_unrepeated`).
-/

namespace Staging

/-! ## Names that do not repeat -/

namespace Members

theorem firstNames_of_nodup {pairs : List (String × Json)} (h : (pairs.map Prod.fst).Nodup) :
    firstNames pairs = pairs.map Prod.fst := by
  induction pairs using List.reverseRecOn with
  | nil => rfl
  | append_singleton pairs p ih =>
      rw [List.map_append, List.nodup_append] at h
      have hfirst := ih h.1
      have hnew : p.1 ∉ firstNames pairs := by
        rw [hfirst]
        exact fun hmem => h.2.2 p.1 hmem p.1 List.mem_cons_self rfl
      rw [firstNames_concat, if_neg hnew, hfirst, List.map_append]
      rfl

/-- Members that do not repeat a name are settled. -/
theorem settle_of_nodup {pairs : List (String × Json)} (h : (pairs.map Prod.fst).Nodup) :
    settle pairs = pairs := by
  have hreverse : (pairs.reverse.map Prod.fst).Nodup := by
    rw [List.map_reverse]
    exact List.nodup_reverse.mpr h
  have hlast : ∀ p ∈ pairs, (p.1, (last? pairs p.1).getD .null) = p := by
    intro p hp
    have hlookup : last? pairs p.1 = some p.2 :=
      (lookup_eq_some_iff hreverse).mpr (List.mem_reverse.mpr hp)
    rw [hlookup]
    rfl
  rw [settle, firstNames_of_nodup h, List.map_map]
  exact (List.map_congr_left hlast).trans (List.map_id pairs)

end Members

namespace Json

mutual

/-- A value without repeated names is settled. -/
theorem settled_of_unrepeated : ∀ v : Json, v.Unrepeated → v.settled = v
  | .null, _ | .bool _, _ | .int _, _ | .float _, _ | .str _, _ => rfl
  | .arr items, h => by
    rw [settled, settledItems_of_unrepeated items h]
  | .obj members, ⟨hnodup, h⟩ => by
    rw [settled, settledMembers_of_unrepeated members h, Members.settle_of_nodup hnodup]

theorem settledItems_of_unrepeated : ∀ items : List Json, EachItem List.Nodup items →
    settledItems items = items
  | [], _ => rfl
  | v :: items, ⟨hv, h⟩ => by
    rw [settledItems, settled_of_unrepeated v hv, settledItems_of_unrepeated items h]

theorem settledMembers_of_unrepeated : ∀ members : List (String × Json),
    EachMember List.Nodup members → settledMembers members = members
  | [], _ => rfl
  | (name, v) :: members, ⟨hv, h⟩ => by
    rw [settledMembers, settled_of_unrepeated v hv, settledMembers_of_unrepeated members h]

end

theorem parse_render_unrepeated {l : Layout} (hl : l.Readable) {v : Json}
    (hrange : v.inRange = true) (hv : v.Unrepeated) : parse (v.render l) = .ok v := by
  rw [parse_render hl hrange, settled_of_unrepeated v hv]

/-! ## Tighter layouts -/

/-- A layout that writes no more than another between the parts of a value, and strings alike. -/
structure Layout.Tighter (l k : Layout) : Prop where
  comma : l.comma.Sublist k.comma
  colon : l.colon.Sublist k.colon
  lineBreak : ∀ depth, (l.lineBreak depth).Sublist (k.lineBreak depth)
  escape : l.escape = k.escape

theorem compact_tighter_pretty : Layout.compact.Tighter .pretty :=
  ⟨.refl _, .cons_cons _ (List.nil_sublist _), fun _ => List.nil_sublist _, rfl⟩

variable {l k : Layout}

theorem stringChars_eq (h : l.Tighter k) (s : String) : stringChars l s = stringChars k s := by
  rw [stringChars, stringChars, h.escape]

mutual

theorem chars_sublist (h : l.Tighter k) (depth : Nat) :
    ∀ v : Json, (chars l depth v).Sublist (chars k depth v)
  | .null | .bool true | .bool false | .int _ | .float _ | .arr [] | .obj [] => .refl _
  | .str s => by
    rw [chars, chars, stringChars_eq h]
  | .arr (v :: items) => by
    have hopen := (h.lineBreak (depth + 1)).cons_cons '['
    have hitems := itemsChars_sublist h (depth + 1) items
    exact (((hopen.append (chars_sublist h (depth + 1) v)).append hitems).append
      (h.lineBreak depth)).append (.refl _)
  | .obj ((name, v) :: members) => by
    have hopen := (h.lineBreak (depth + 1)).cons_cons '\x7b'
    have hmembers := membersChars_sublist h (depth + 1) members
    rw [chars, chars, stringChars_eq h]
    exact (((((hopen.append (.refl _)).append h.colon).append
      (chars_sublist h (depth + 1) v)).append hmembers).append (h.lineBreak depth)).append (.refl _)

theorem itemsChars_sublist (h : l.Tighter k) (depth : Nat) :
    ∀ items : List Json, (itemsChars l depth items).Sublist (itemsChars k depth items)
  | [] => .refl _
  | v :: items =>
    ((h.comma.append (h.lineBreak depth)).append (chars_sublist h depth v)).append
      (itemsChars_sublist h depth items)

theorem membersChars_sublist (h : l.Tighter k) (depth : Nat) :
    ∀ members : List (String × Json),
      (membersChars l depth members).Sublist (membersChars k depth members)
  | [] => .refl _
  | (name, v) :: members => by
    rw [membersChars, membersChars, stringChars_eq h]
    exact ((((h.comma.append (h.lineBreak depth)).append (.refl _)).append h.colon).append
      (chars_sublist h depth v)).append (membersChars_sublist h depth members)

end

/-- Whatever the characters are written as, the tighter text does not become the longer one. -/
theorem length_flatMap_render (h : l.Tighter k) (escape : Char → List Char) (v : Json) :
    ((v.render l).toList.flatMap escape).length ≤ ((v.render k).toList.flatMap escape).length := by
  rw [render, render, String.toList_ofList, String.toList_ofList]
  exact ((chars_sublist h 0 v).flatMap _).length_le

end Json

end Staging
