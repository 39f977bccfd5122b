import MessageIntake.Text.Visible

/-!
# Inspection text

The text of a value for the eye of a developer. Text is quoted, with a
backslash before a quote and before a backslash, `\n`, `\r`, `\t` and
`\0` for four controls, and the code of any other character that cannot
be shown in braces. Bytes are quoted after a `b`, and every byte outside
the visible seven-bit characters is `\x` and two digits. A record is
written with its name and its fields, a variant with its name and its
value in parentheses.

`quoteChar_of_plain` says which characters stand for themselves.
-/

namespace MessageIntake.Text

/-- The digits of `n` in base sixteen, lower case, without leading
zeros. -/
def hexDigits (n : Nat) : String := String.ofList (Nat.toDigits 16 n)

/-- The two hexadecimal digits of a byte. -/
def hexByte (b : UInt8) : String :=
  String.ofList [Nat.digitChar (b.toNat / 16), Nat.digitChar (b.toNat % 16)]

/-- Bytes as hexadecimal digits, two for each. -/
def hex (bytes : ByteArray) : String :=
  bytes.data.foldl (fun text b => text ++ hexByte b) ""

/-- A character inside quotes. -/
def quoteChar (c : Char) : String :=
  if c = '"' then "\\\""
  else if c = '\\' then "\\\\"
  else if c = '\n' then "\\n"
  else if c = '\r' then "\\r"
  else if c = '\t' then "\\t"
  else if c = '\x00' then "\\0"
  else if isVisible c then c.toString
  else "\\u\x7b" ++ hexDigits c.toNat ++ "\x7d"

/-- Text in quotes. -/
def quoted (s : String) : String :=
  s.foldl (fun text c => text ++ quoteChar c) "\"" ++ "\""

/-- A byte inside quotes. -/
def quoteByte (b : UInt8) : String :=
  if b = 0x22 then "\\\""
  else if b = 0x5c then "\\\\"
  else if b = 0x0a then "\\n"
  else if b = 0x0d then "\\r"
  else if b = 0x09 then "\\t"
  else if b = 0 then "\\0"
  else if 0x20 ≤ b ∧ b ≤ 0x7e then (Char.ofUInt8 b).toString
  else "\\x" ++ hexByte b

/-- Bytes in quotes. -/
def quotedBytes (bytes : ByteArray) : String :=
  bytes.data.foldl (fun text b => text ++ quoteByte b) "b\"" ++ "\""

/-- A record: its name, then its fields with their values in braces. -/
def record (name : String) (fields : List (String × String)) : String :=
  name ++ " \x7b " ++ ", ".intercalate (fields.map fun (field, value) => field ++ ": " ++ value)
    ++ " \x7d"

/-- A variant that carries one value. -/
def variant (name value : String) : String := name ++ "(" ++ value ++ ")"

/-- A value that may be missing. -/
def optional : Option String → String
  | none => "None"
  | some value => variant "Some" value

/-- A truth value. -/
def truth (b : Bool) : String := if b then "true" else "false"

theorem quoteChar_of_plain {c : Char} (visible : isVisible c) (quote : c ≠ '"')
    (backslash : c ≠ '\\') : quoteChar c = c.toString := by
  have shown : ∀ d : Char, isVisible d = false → c ≠ d := fun d hd h => by simp [h, hd] at visible
  have := shown '\n' rfl
  have := shown '\r' rfl
  have := shown '\t' rfl
  have := shown '\x00' rfl
  simp_all [quoteChar]

end MessageIntake.Text
