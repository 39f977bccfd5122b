import MessageIntake.Json.Basic

/-!
# Records in JSON

A record is read from an object, by the names of its fields, or from an
array, by their order. An object may lack fields and may have members
that are no fields; an array may lack fields at its end and has no more
items than there are fields. A field is read from what is given for it,
if anything is.
-/

namespace MessageIntake.Json

/-- What is given for each of the fields `names`; nothing if the value is
no record of them. -/
def fields? (names : List String) : Json → Option (String → Option Json)
  | obj members => some fun name => members.lookup name
  | arr items =>
    if items.length ≤ names.length then some fun name => items[names.idxOf name]?
    else none
  | _ => none

/-- A field that may be null: `read` reads its value, and a field that is
not given is null. -/
def nullable {α : Type} (read : Json → Option α) : Option Json → Option (Option α)
  | none | some null => some none
  | some value => (read value).map some

/-- A field that has a default where it is not given. -/
def orElse {α : Type} (default : α) (read : Json → Option α) : Option Json → Option α
  | none => some default
  | some value => read value

def text? : Json → Option String
  | str s => some s
  | _ => none

def truth? : Json → Option Bool
  | bool b => some b
  | _ => none

/-- A whole number that satisfies `least ≤ n ≤ greatest`. -/
def int? (least greatest : Int) : Json → Option Int
  | int n => if least ≤ n ∧ n ≤ greatest then some n else none
  | _ => none

/-- A natural number below `bound`. -/
def nat? (bound : Nat) : Json → Option Nat
  | int (.ofNat n) => if n < bound then some n else none
  | _ => none

end MessageIntake.Json
