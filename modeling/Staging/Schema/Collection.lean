import Staging.Json.Pointer
import Staging.Schema.Statistics

/-!
# Statistics on the way

One walk can do all that is done with a record: it goes through the members of every object in
canonical order, counts those of the record itself and visits the scalars. Members are counted as
they stand and under their own names, before anything below them is visited; pointers are for the
visits alone.
-/

namespace Staging

namespace Json

/-- Does what is to be done under each name, one after the other. -/
def inTurn {m : Type → Type} [Monad m] {α : Type} (actions : List (String × m α)) :
    m (List (String × α)) :=
  actions.mapM fun (name, action) => do return (name, ← action)

mutual

/-- The canonical form of the value that `pointer` names, `depth` steps below a record, with its
scalars visited. Members are counted at the record itself only. -/
def countingWalk {m : Type → Type} [Monad m] (count : String → Json → m Unit)
    (visit : String → Json → m Json) (pointer : String) (depth : Nat) : Json → m Json
  | .null => pure .null
  | .arr items => do
    return .arr (← countingWalkItems count visit pointer (depth + 1) 0 items)
  | .obj members => do
    if depth = 0 then members.forM fun (name, v) => count name v
    return .obj (← inTurn (sortMembers (memberWalks count visit pointer (depth + 1) members)))
  | .bool b => visit pointer (.bool b)
  | .int n => visit pointer (.int n)
  | .float x => visit pointer (.float x)
  | .str s => visit pointer (.str s)

/-- Walks over the items from number `n` on. -/
def countingWalkItems {m : Type → Type} [Monad m] (count : String → Json → m Unit)
    (visit : String → Json → m Json) (pointer : String) (depth : Nat) (n : Nat) :
    List Json → m (List Json)
  | [] => pure []
  | v :: items => do
    let v ← countingWalk count visit (stepDown pointer (itemToken n)) depth v
    return v :: (← countingWalkItems count visit pointer depth (n + 1) items)

/-- The walk over each member, under its name. -/
def memberWalks {m : Type → Type} [Monad m] (count : String → Json → m Unit)
    (visit : String → Json → m Json) (pointer : String) (depth : Nat) :
    List (String × Json) → List (String × m Json)
  | [] => []
  | (name, v) :: members =>
    (name, countingWalk count visit (stepDown pointer (memberToken name)) depth v)
      :: memberWalks count visit pointer depth members

end

end Json

namespace Schema

/-- Counts the fields of a record, and returns it in canonical form. -/
def Statistics.collect (record : Json) : StateM Statistics Json := do
  modify fun s => { s with observed := s.observed + 1 }
  record.countingWalk (fun name v => modify fun s => { s with fields := s.fields.add name v })
    (fun _ v => pure v) "" 0

end Schema

end Staging
