import MessageIntake.Number.Binary64
import MessageIntake.Number.Digits

/-!
# Numbers in plain text

Whole numbers and floating-point numbers as a person or a variable gives
them: decimal, with a sign before and nothing else around. The whole of
the text is the number, or it is none.
-/

namespace MessageIntake.Number

open Text (Reader)

/-- Takes a sign, if there is one; whether it is a minus. -/
def sign : Reader Bool := do
  if ← Reader.accept "-" then pure true
  else
    let _ ← Reader.accept "+"
    pure false

/-- A whole number with a sign. -/
def whole : Reader Int := do
  let negative ← sign
  let n := decimalValue (← digits1)
  pure (if negative then -(n : Int) else n)

/-- The exponent after its mark; zero where there is none. -/
def exponent : Reader Int := do
  match ← Reader.peek with
  | some 'e' | some 'E' =>
    let _ ← Reader.next
    whole
  | _ => pure 0

/-- Digits with a point among them, before them or after them, and an
exponent. -/
def floating (negative : Bool) : Reader Binary64 := do
  let before ← digits
  let after ← if ← Reader.accept "." then digits else pure []
  if before.isEmpty && after.isEmpty then Reader.fail
  let scale ← exponent
  pure (Binary64.ofDecimal negative (decimalValue (before ++ after)) (scale - (after.length : Int)))

/-- The whole number of 64 bits that a text is. -/
def int64? (s : String) : Option Int64 :=
  match whole.readAll s with
  | some n =>
    if Int64.minValue.toInt ≤ n ∧ n ≤ Int64.maxValue.toInt then some (Int64.ofInt n) else none
  | none => none

/-- The floating-point number that a text is: digits, or a name in any
case. -/
def binary64? (s : String) : Option Binary64 :=
  Reader.readAll (do
    let negative ← sign
    let rest ← get
    match (String.ofList rest).toLower with
    | "inf" | "infinity" =>
      set ([] : List Char)
      pure (.infinite negative)
    | "nan" =>
      set ([] : List Char)
      pure .nan
    | _ => floating negative) s

end MessageIntake.Number
