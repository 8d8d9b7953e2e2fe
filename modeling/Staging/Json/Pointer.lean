import Staging.Json.Basic

/-!
# Pointers to scalars

A JSON pointer names a place in a value: a slash and a token for each step down, a member's name
with `~` and `/` escaped or an item's number. Walking a value visits its scalars other than null
in order, each with its pointer, and puts what the visits return in their places; everything else
stays. The visitor may have effects, so what it saw and when can be observed.
-/

namespace Staging.Json

/-- The escape of a character in a pointer's token. -/
def tokenChar (c : Char) : List Char :=
  if c = '~' then ['~', '0'] else if c = '/' then ['~', '1'] else [c]

/-- The token for a member. -/
def memberToken (name : String) : String := String.ofList (name.toList.flatMap tokenChar)

/-- The token for an item. -/
def itemToken (n : Nat) : String := String.ofList (Nat.toDigits 10 n)

/-- The pointer one step further down. -/
def stepDown (pointer token : String) : String := pointer ++ "/" ++ token

mutual

/-- Visits the scalars of the value that `pointer` names. -/
def walk {m : Type → Type} [Monad m] (visit : String → Json → m Json) (pointer : String) :
    Json → m Json
  | .null => pure .null
  | .arr items => do return .arr (← walkItems visit pointer 0 items)
  | .obj members => do return .obj (← walkMembers visit pointer members)
  | .bool b => visit pointer (.bool b)
  | .int n => visit pointer (.int n)
  | .float x => visit pointer (.float x)
  | .str s => visit pointer (.str s)

/-- Visits the scalars of the items from number `n` on. -/
def walkItems {m : Type → Type} [Monad m] (visit : String → Json → m Json) (pointer : String)
    (n : Nat) : List Json → m (List Json)
  | [] => pure []
  | v :: items => do
    let v ← walk visit (stepDown pointer (itemToken n)) v
    return v :: (← walkItems visit pointer (n + 1) items)

/-- Visits the scalars of the members. -/
def walkMembers {m : Type → Type} [Monad m] (visit : String → Json → m Json) (pointer : String) :
    List (String × Json) → m (List (String × Json))
  | [] => pure []
  | (name, v) :: members => do
    let v ← walk visit (stepDown pointer (memberToken name)) v
    return (name, v) :: (← walkMembers visit pointer members)

end

end Staging.Json
