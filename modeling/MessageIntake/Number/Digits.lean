import MessageIntake.Text.Reader

/-!
# Digits

What digits stand for, in base ten and in base sixteen, and readers that
take them. `decimalValue_append` says how the value grows with the
digits: those before are worth ten times as much for each one after.
-/

namespace MessageIntake.Number

open Text (Reader)

/-- Ten to the power of `n`. -/
def tenTo (n : Nat) : Nat := Nat.pow 10 n

/-- The number that decimal digits stand for. -/
def decimalValue (digits : List Char) : Nat :=
  digits.foldl (fun n c => 10 * n + (c.toNat - '0'.toNat)) 0

/-- The value of a hexadecimal digit, of either case. -/
def hexValue? (c : Char) : Option Nat :=
  if '0' ≤ c && c ≤ '9' then some (c.toNat - '0'.toNat)
  else if 'a' ≤ c && c ≤ 'f' then some (c.toNat - 'a'.toNat + 10)
  else if 'A' ≤ c && c ≤ 'F' then some (c.toNat - 'A'.toNat + 10)
  else none

/-- Takes decimal digits. -/
def digits : Reader (List Char) := Reader.takeWhile Char.isDigit

/-- Takes at least one decimal digit. -/
def digits1 : Reader (List Char) := do
  let read ← digits
  if read.isEmpty then Reader.fail else pure read

/-- Takes `count` hexadecimal digits after the number `n`. -/
def hexDigits : (count n : Nat) → Reader Nat
  | 0, n => pure n
  | count + 1, n => do
    match hexValue? (← Reader.next) with
    | some digit => hexDigits count (16 * n + digit)
    | none => Reader.fail

@[simp] theorem tenTo_zero : tenTo 0 = 1 := rfl

theorem tenTo_succ (n : Nat) : tenTo (n + 1) = tenTo n * 10 := rfl

@[simp] theorem decimalValue_nil : decimalValue [] = 0 := rfl

theorem foldl_decimal (start : Nat) (digits : List Char) :
    digits.foldl (fun n c => 10 * n + (c.toNat - '0'.toNat)) start =
      start * tenTo digits.length + decimalValue digits := by
  induction digits generalizing start with
  | nil => simp
  | cons c rest ih =>
    simp only [List.foldl_cons, List.length_cons, decimalValue, tenTo_succ]
    rw [ih (10 * start + (c.toNat - '0'.toNat)), ih (10 * 0 + (c.toNat - '0'.toNat))]
    grind

/-- Digits before others are worth ten times as much for each of them. -/
theorem decimalValue_append (before after : List Char) :
    decimalValue (before ++ after) =
      decimalValue before * tenTo after.length + decimalValue after := by
  rw [decimalValue, List.foldl_append, foldl_decimal]
  rfl

end MessageIntake.Number
