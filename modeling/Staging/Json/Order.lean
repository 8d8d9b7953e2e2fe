import Staging.Json.Basic

/-!
# Canonical member order

The member that identifies a record comes first, the others follow by code point. A value whose
every object is in that order, at any depth, is canonical; items of arrays keep their places.
-/

namespace Staging

/-- The member that identifies a record. -/
def idField : String := "id"

namespace Json

/-- Whether one name may stand before another. -/
def nameLe (a b : String) : Bool :=
  if a = idField then true else if b = idField then false else decide (a ≤ b)

/-- Names in canonical order. -/
def sortNames (names : List String) : List String :=
  names.mergeSort nameLe

/-- Members in canonical order of their names. -/
def sortMembers {α : Type} (members : List (String × α)) : List (String × α) :=
  members.mergeSort fun a b => nameLe a.1 b.1

mutual

/-- The value with the members of every object in canonical order. -/
def canonical : Json → Json
  | .arr items => .arr (canonicalItems items)
  | .obj members => .obj (sortMembers (canonicalMembers members))
  | v => v

def canonicalItems : List Json → List Json
  | [] => []
  | v :: items => canonical v :: canonicalItems items

def canonicalMembers : List (String × Json) → List (String × Json)
  | [] => []
  | (name, v) :: members => (name, canonical v) :: canonicalMembers members

end

end Json

end Staging
