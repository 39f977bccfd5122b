import MessageIntake.Number.Binary64

/-!
# JSON values

A number without a fraction and an exponent is a whole number; any other
is a floating-point number. The members of an object are in the order
written, each key once.
-/

namespace MessageIntake

inductive Json where
  | null
  | bool (value : Bool)
  | int (value : Int)
  | float (value : Binary64)
  | str (value : String)
  | arr (items : List Json)
  | obj (members : List (String × Json))
  deriving Repr, Inhabited

namespace Json

/-- Sets `key` in `members`: in the place it has, or at the end. -/
def insert (key : String) (value : Json) : List (String × Json) → List (String × Json)
  | [] => [(key, value)]
  | (k, v) :: rest => if k = key then (k, value) :: rest else (k, v) :: insert key value rest

/-- The member of an object named `key`. -/
def get? (key : String) : Json → Option Json
  | obj members => members.lookup key
  | _ => none

/-- A text, or null. -/
def ofText? : Option String → Json
  | none => null
  | some s => str s

end Json

end MessageIntake
