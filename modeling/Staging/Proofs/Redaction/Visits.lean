import Staging.Proofs.Json.Scalars
import Staging.Redaction

/-!
# One visit to each scalar

Processing a record visits what can be reached in it and is a scalar other than null, each under the
one pointer that leads to it, and puts what the visits return in their places
(`process_visits_scalars`). This holds for visits with any effects: they may keep notes, answer
differently each time, or fail.
-/

namespace Staging.Redaction

open Json

/-- The visits to a record: the scalars of its canonical form in order, with their pointers. -/
def visits (record : Json) : List (String × Json) :=
  record.canonical.scalars.map fun place => (pointerBelow "" place.1, place.2)

theorem process_eq {m : Type → Type} [Monad m] [LawfulMonad m] (visit : String → Json → m Json)
    (record : Json) : process visit record
      = (visits record).mapM (fun call => visit call.1 call.2) >>= fun values =>
          pure (record.canonical.refill values) := by
  rw [process, walk_eq, visits, List.mapM_map]
  rfl

theorem nodup_pointers {record : Json} (hrecord : record.Unrepeated) :
    ((visits record).map Prod.fst).Nodup := by
  have hpaths := nodup_paths _ (unrepeated_canonical hrecord)
  have hpointers : (visits record).map Prod.fst
      = (record.canonical.scalars.map Prod.fst).map (pointerBelow "") := by
    rw [visits, List.map_map, List.map_map]
    rfl
  rw [hpointers]
  exact hpaths.map fun _ _ => pointerBelow_injective

theorem mem_visits_iff {record : Json} (hrecord : record.Unrepeated) (pointer : String) (v : Json) :
    (pointer, v) ∈ visits record ↔ record.resolve? pointer = some v ∧ isScalar v = true := by
  rw [visits, List.mem_map, resolve?_eq_some_iff]
  constructor
  · rintro ⟨⟨path, s⟩, hplace, heq⟩
    obtain ⟨rfl, rfl⟩ := Prod.mk.inj heq
    obtain ⟨hreached, hscalar⟩ := (mem_scalars_canonical_iff hrecord).mp hplace
    exact ⟨⟨path, rfl, hreached⟩, hscalar⟩
  · rintro ⟨⟨path, rfl, hreached⟩, hscalar⟩
    exact ⟨(path, v), (mem_scalars_canonical_iff hrecord).mpr ⟨hreached, hscalar⟩, rfl⟩

/-- A record is processed by visits to its scalars in canonical order, each with a pointer of its
own that leads to it in the record as it was, and by putting what they return in their places. -/
theorem process_visits_scalars {record : Json} (hrecord : record.Unrepeated) :
    (∀ {m : Type → Type} [Monad m] [LawfulMonad m] (visit : String → Json → m Json),
      process visit record = do
        let values ← (visits record).mapM fun call => visit call.1 call.2
        return record.canonical.refill values) ∧
    ((visits record).map Prod.fst).Nodup ∧
    ∀ pointer v, (pointer, v) ∈ visits record ↔
      record.resolve? pointer = some v ∧ isScalar v = true :=
  ⟨fun visit => process_eq visit record, nodup_pointers hrecord, mem_visits_iff hrecord⟩

/-- Names that read like several steps, like an escape and like the number of an item. -/
def awkwardNames : Json :=
  .obj [("a/b", .obj [("~1", .arr [.null, .str "x"])]), ("", .int 1),
    ("a", .obj [("b", .bool true)]), ("0", .arr [.arr [.float .zero]])]

/-- Notes where it is, and hides what it sees. -/
def noteAndHide (pointer : String) (_ : Json) : StateM (List String) Json := do
  modify (pointer :: ·)
  return .null

theorem awkwardNames_visited : awkwardNames.Unrepeated ∧
    process noteAndHide awkwardNames = (do
      let values ← (visits awkwardNames).mapM fun call => noteAndHide call.1 call.2
      return awkwardNames.canonical.refill values) ∧
    ((visits awkwardNames).map Prod.fst).Nodup ∧
    ("/a~1b/~01/1", .str "x") ∈ visits awkwardNames ∧
    ("/", .int 1) ∈ visits awkwardNames ∧
    ("/0/0/0", .float .zero) ∈ visits awkwardNames := by
  have hrecord : awkwardNames.Unrepeated := by
    simp [awkwardNames, Unrepeated, EachObject, EachItem, EachMember]
  obtain ⟨hprocess, hnodup, hmem⟩ := process_visits_scalars hrecord
  exact ⟨hrecord, hprocess noteAndHide, hnodup, (hmem _ _).mpr ⟨by rfl, rfl⟩,
    (hmem _ _).mpr ⟨by rfl, rfl⟩, (hmem _ _).mpr ⟨by rfl, rfl⟩⟩

end Staging.Redaction
