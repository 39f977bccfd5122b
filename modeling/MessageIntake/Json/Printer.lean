import MessageIntake.Json.Basic
import MessageIntake.Text.Inspection

/-!
# Writing JSON

The compact form: no blanks, the members of an object in ascending order
of their keys, and every character as it is except the quote, the
backslash and the controls. A floating-point number has the fewest
digits that read back, a tie going to the even one; it is written in
full from `0.00001` up to below `10 ^ 16` and with an exponent outside.
-/

namespace MessageIntake.Json

/-- A character inside quotes. -/
def escape (c : Char) : String :=
  if c = '"' then "\\\""
  else if c = '\\' then "\\\\"
  else if c = '\n' then "\\n"
  else if c = '\r' then "\\r"
  else if c = '\t' then "\\t"
  else if c = '\x08' then "\\b"
  else if c = '\x0c' then "\\f"
  else if c.toNat < 0x20 then "\\u00" ++ Text.hexByte c.toNat.toUInt8
  else c.toString

/-- A text in quotes. -/
def quote (s : String) : String :=
  s.foldl (fun text c => text ++ escape c) "\"" ++ "\""

/-- A positive decimal; a whole number keeps a fraction of zero, and an
exponent has its sign. -/
def decimalText (d : Binary64.Decimal) : String :=
  let digits := Nat.toDigits 10 d.digits
  -- The value is the digits after a point, times ten to `point`.
  let point := d.exponent + (digits.length : Int)
  if -5 < point && point ≤ 16 then
    let text := d.text
    if text.contains '.' then text else text ++ ".0"
  else
    let sign := if 0 < point then "+" else "-"
    let mantissa := match (digits.reverse.dropWhile (· = '0')).reverse with
      | first :: second :: rest => first :: '.' :: second :: rest
      | short => short
    String.ofList mantissa ++ "e" ++ sign ++ toString (point - 1).natAbs

/-- A floating-point number. -/
def floatText (x : Binary64) : String :=
  match x with
  | .nan | .infinite _ => "null"
  | .finite negative m e =>
    (if negative then "-" else "") ++
      (if m = 0 then "0.0" else decimalText (Binary64.shortest .toEven m e))

mutual

/-- The compact form of a value. -/
def compact : Json → String
  | null => "null"
  | bool value => Text.truth value
  | int value => toString value
  | float value => floatText value
  | str value => quote value
  | arr items => "[" ++ ",".intercalate (compactItems items) ++ "]"
  | obj members =>
    let written := (compactMembers members).mergeSort fun a b => a.1 ≤ b.1
    "\x7b" ++ ",".intercalate (written.map fun (key, value) => quote key ++ ":" ++ value) ++ "\x7d"

def compactItems : List Json → List String
  | [] => []
  | item :: rest => compact item :: compactItems rest

def compactMembers : List (String × Json) → List (String × String)
  | [] => []
  | (key, value) :: rest => (key, compact value) :: compactMembers rest

end

end MessageIntake.Json
