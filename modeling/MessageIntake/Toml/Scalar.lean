import MessageIntake.Number.Literal
import MessageIntake.Toml.Basic

/-!
# TOML scalars

Keys, the four kinds of text, whole numbers in four bases,
floating-point numbers and moments. A digit group may be parted by
single underscores between digits; a decimal number has no leading zero.
-/

namespace MessageIntake.Toml

open Text (Reader)

def isBlank (c : Char) : Bool := c = ' ' || c = '\t'

/-- Takes blanks on a line. -/
def blanks : Reader Unit := do
  let _ ← Reader.takeWhile isBlank

/-- Whether a character may stand for itself in a comment or in a text on
one line. -/
def isPlain (c : Char) : Bool := c = '\t' || (0x20 ≤ c.toNat && c.toNat != 0x7f)

/-- Takes a line end, if one follows. -/
def lineEnd : Reader Bool := do
  if ← Reader.accept "\n" then pure true else Reader.accept "\r\n"

/-! ## Text -/

/-- A character by its code, of `count` digits. -/
def codeEscape (count : Nat) : Reader Char := do
  let n ← Number.hexDigits count 0
  if h : n.isValidChar then pure (Char.ofNatAux n h) else Reader.fail

/-- The character after a backslash. -/
def escaped : Reader Char := do
  match ← Reader.next with
  | 'b' => pure '\x08'
  | 'e' => pure '\x1b'
  | 't' => pure '\t'
  | 'n' => pure '\n'
  | 'f' => pure '\x0c'
  | 'r' => pure '\r'
  | '"' => pure '"'
  | '\\' => pure '\\'
  | 'x' => codeEscape 2
  | 'u' => codeEscape 4
  | 'U' => codeEscape 8
  | _ => Reader.fail

/-- Text on one line after its opening quote; `escapes` says whether a
backslash begins an escape. -/
def lineText (quote : Char) (escapes : Bool) : Reader String :=
  Reader.iterate (fun (read : List Char) => do
    let c ← Reader.next
    if c = quote then pure (.inr (String.ofList read.reverse))
    else if escapes && c = '\\' then pure (.inl ((← escaped) :: read))
    else if isPlain c then pure (.inl (c :: read))
    else Reader.fail) []

/-- Takes blanks and line ends. -/
def blankLines : Reader Unit :=
  Reader.iterate (fun (_ : Unit) => do
    blanks
    if ← lineEnd then pure (.inl ()) else pure (.inr ())) ()

/-- The quotes at the end of a text on several lines: up to two belong to
the text, three end it. Nothing if fewer than three follow. -/
def closing (quote : Char) : Reader (Option (List Char)) := fun s =>
  let run := (s.takeWhile (· = quote)).length
  if run < 3 then some (none, s)
  else
    let kept := min (run - 3) 2
    some (some (List.replicate kept quote), s.drop (kept + 3))

/-- Text on several lines after its opening quotes. A line end right
after them is dropped; a backslash before a line end drops it with the
blanks around it; every other line end stays as it is written. -/
def blockText (quote : Char) (escapes : Bool) : Reader String := do
  let _ ← lineEnd
  Reader.iterate (fun (read : List Char) => do
    match ← closing quote with
    | some kept => pure (.inr (String.ofList (read.reverse ++ kept)))
    | none =>
      if ← Reader.accept "\r\n" then pure (.inl ('\n' :: '\r' :: read))
      else
        let c ← Reader.next
        if escapes && c = '\\' then
          match ← Reader.peek with
          | some ' ' | some '\t' | some '\n' | some '\r' =>
            blanks
            if ← lineEnd then
              blankLines
              pure (.inl read)
            else Reader.fail
          | _ => pure (.inl ((← escaped) :: read))
        else if isPlain c || c = '\n' then pure (.inl (c :: read))
        else Reader.fail) []

/-- Text of any kind, from its quotes on. -/
def text : Reader String := do
  if ← Reader.accept "\"\"\"" then blockText '"' true
  else if ← Reader.accept "'''" then blockText '\'' false
  else if ← Reader.accept "\"" then lineText '"' true
  else if ← Reader.accept "'" then lineText '\'' false
  else Reader.fail

/-! ## Keys -/

def isBareKey (c : Char) : Bool := c.isAlphanum || c = '_' || c = '-'

/-- One part of a key. -/
def simpleKey : Reader String := do
  if ← Reader.accept "\"" then lineText '"' true
  else if ← Reader.accept "'" then lineText '\'' false
  else
    let name ← Reader.takeWhile isBareKey
    if name.isEmpty then Reader.fail else pure (String.ofList name)

/-- How many parts a dotted key may have. -/
def keyLimit : Nat := 80

/-- A dotted key, with the blanks after it. -/
def key : Reader (List String) := do
  let parts ← Reader.iterate (fun (read : List String) => do
    blanks
    let part ← simpleKey
    blanks
    let read := part :: read
    if ← Reader.accept "." then pure (.inl read) else pure (.inr read.reverse)) []
  if keyLimit < parts.length then Reader.fail else pure parts

/-! ## Numbers -/

/-- Digits that may be parted by underscores, without these. Nothing
unless every underscore stands between two digits. -/
def ungroup (isDigit : Char → Bool) : List Char → Option (List Char)
  | [] => none
  | [c] => if isDigit c then some [c] else none
  | c :: '_' :: rest => if isDigit c then (ungroup isDigit rest).map (c :: ·) else none
  | c :: rest => if isDigit c then (ungroup isDigit rest).map (c :: ·) else none

/-- A whole number, if it fits 64 bits with a sign. -/
def int64? (n : Int) : Option Toml :=
  if Int64.minValue.toInt ≤ n ∧ n ≤ Int64.maxValue.toInt then some (.int (Int64.ofInt n))
  else none

/-- A whole number in another base. -/
def based? (base : Nat) (digits : List Char) : Option Toml := do
  let isDigit := fun c => (Number.hexValue? c).any (· < base)
  let digits ← ungroup isDigit digits
  int64? (digits.foldl (fun n c => base * n + (Number.hexValue? c).getD 0) 0)

/-- Decimal digits without a leading zero. -/
def decimal? (digits : List Char) : Option (List Char) := do
  let digits ← ungroup Char.isDigit digits
  if digits.head? = some '0' && 1 < digits.length then none else some digits

/-- The exponent of a number, from after its mark. -/
def exponent? (s : List Char) : Option Int :=
  let (negative, digits) := match s with
    | '-' :: rest => (true, rest)
    | '+' :: rest => (false, rest)
    | _ => (false, s)
  (ungroup Char.isDigit digits).map fun digits =>
    let n : Int := Number.decimalValue digits
    if negative then -n else n

/-- A decimal number without its sign; none if it is too large. -/
def decimalNumber? (negative : Bool) (s : List Char) : Option Toml := do
  let isMark := fun c => c = 'e' || c = 'E'
  let mantissa := s.takeWhile (!isMark ·)
  let exponent := (s.dropWhile (!isMark ·)).tail?
  let before := mantissa.takeWhile (· != '.')
  let after := (mantissa.dropWhile (· != '.')).tail?
  let before ← decimal? before
  match after, exponent with
  | none, none =>
    let n : Int := Number.decimalValue before
    int64? (if negative then -n else n)
  | _, _ =>
    let after ← match after with
      | some digits => ungroup Char.isDigit digits
      | none => some []
    let scale ← match exponent with
      | some rest => exponent? rest
      | none => some 0
    let digits := Number.decimalValue (before ++ after)
    match Binary64.ofDecimal negative digits (scale - (after.length : Int)) with
    | .infinite _ => none
    | x => some (.float x)

/-! ## Words -/

/-- The number, the truth value or the moment that a word is. -/
def word? (s : List Char) : Option Toml :=
  match s with
  | ['t', 'r', 'u', 'e'] => some (.bool true)
  | ['f', 'a', 'l', 's', 'e'] => some (.bool false)
  | '0' :: 'x' :: rest => based? 16 rest
  | '0' :: 'o' :: rest => based? 8 rest
  | '0' :: 'b' :: rest => based? 2 rest
  | _ =>
    let (negative, rest) := match s with
      | '-' :: rest => (true, rest)
      | '+' :: rest => (false, rest)
      | _ => (false, s)
    match rest with
    | ['i', 'n', 'f'] => some (.float (.infinite negative))
    | ['n', 'a', 'n'] => some (.float .nan)
    | _ => (decimalNumber? negative rest).or ((Moment.ofText? s).map .moment)

/-- Whether a character can be part of a word. -/
def isWordPart (c : Char) : Bool :=
  c.isAlphanum || c = '_' || c = '+' || c = '-' || c = '.' || c = ':'

/-- The time after a date, if the word so far is one and a time is parted
from it by one blank. -/
def wordAfterDate (read : List Char) : Reader (List Char) := fun s =>
  match Moment.ofText? read, s with
  | some (.date _), ' ' :: c :: rest =>
    if c.isDigit then
      some (read ++ ' ' :: c :: rest.takeWhile isWordPart, rest.dropWhile isWordPart)
    else some (read, s)
  | _, _ => some (read, s)

/-- A number, a truth value or a moment. -/
def word : Reader Toml := do
  let read ← Reader.takeWhile isWordPart
  match word? (← wordAfterDate read) with
  | some value => pure value
  | none => Reader.fail

end MessageIntake.Toml
