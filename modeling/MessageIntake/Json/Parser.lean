import MessageIntake.Json.Basic
import MessageIntake.Number.Digits

/-!
# Reading JSON

Strict JSON: no comments, no trailing commas, no leading zeros, escapes
of surrogates only in pairs. Of two members with one key the later
counts. Values nest less than 128 deep.

A whole number is kept if it fits a signed or an unsigned word of 64
bits. Any other number is scaled in floating point: its leading digits
that fit an unsigned word are rounded, then multiplied or divided by
the rounded power of ten; one too large to represent is refused.
-/

namespace MessageIntake.Json

open Text (Reader)

def isBlank (c : Char) : Bool := c = ' ' || c = '\n' || c = '\t' || c = '\r'

def blanks : Reader Unit := do
  let _ ← Reader.takeWhile isBlank

/-- Four hexadecimal digits. -/
def unit16 : Reader Nat := Number.hexDigits 4 0

/-- The character after `\u`: a unit, or a pair of surrogates. -/
def unicodeEscape : Reader Char := do
  let high ← unit16
  if 0xd800 ≤ high && high < 0xdc00 then
    Reader.literal "\\u"
    let low ← unit16
    if 0xdc00 ≤ low && low < 0xe000 then
      pure (Char.ofNat (0x10000 + (high - 0xd800) * 0x400 + (low - 0xdc00)))
    else Reader.fail
  else if 0xdc00 ≤ high && high < 0xe000 then Reader.fail
  else pure (Char.ofNat high)

/-- The character after a backslash. -/
def escaped : Reader Char := do
  match ← Reader.next with
  | '"' => pure '"'
  | '\\' => pure '\\'
  | '/' => pure '/'
  | 'b' => pure '\x08'
  | 'f' => pure '\x0c'
  | 'n' => pure '\n'
  | 'r' => pure '\r'
  | 't' => pure '\t'
  | 'u' => unicodeEscape
  | _ => Reader.fail

/-- A text after its opening quote. -/
def stringRest : Reader String :=
  Reader.iterate (fun (read : List Char) => do
    let c ← Reader.next
    if c = '"' then pure (.inr (String.ofList read.reverse))
    else if c = '\\' then pure (.inl ((← escaped) :: read))
    else if c.toNat < 0x20 then Reader.fail
    else pure (.inl (c :: read))) []

/-- The greatest unsigned word. -/
def wordMax : Nat := UInt64.size - 1

/-- Folds digits into a word while they fit; the rest is left. -/
def significand (start : Nat) : List Char → Nat × List Char
  | [] => (start, [])
  | c :: rest =>
    let grown := 10 * start + (c.toNat - '0'.toNat)
    if wordMax < grown then (start, c :: rest) else significand grown rest

/-- `n * 10 ^ exponent` for a word `n`, in floating point: both factors
are rounded, then the result. Nothing if it is too large. -/
def scale? (negative : Bool) (n : Nat) (exponent : Int) : Option Binary64 :=
  let base := Binary64.ofDecimal negative n 0
  let power := fun (k : Nat) => Binary64.ofDecimal false 1 k
  if n = 0 then some base
  else if 308 < exponent then none
  else if 0 ≤ exponent then
    match base.mul (power exponent.toNat) with
    | .infinite _ => none
    | x => some x
  else if -308 ≤ exponent then some (base.div (power (-exponent).toNat))
  else
    -- The power itself would be too large, so it is divided by in two steps.
    let reduced := base.div (power 308)
    if -616 ≤ exponent then some (reduced.div (power (-exponent - 308).toNat))
    else some (Binary64.zero negative)

/-- A number that has a fraction or an exponent, or does not fit a
word. The digits of the fraction are taken on top of those that are
taken of the whole part. -/
def floating (negative : Bool) (whole fraction : List Char) (exponent : Int) : Reader Json := do
  let (n, wholeRest) := significand 0 whole
  let (m, fractionRest) := significand n fraction
  let taken := fraction.length - fractionRest.length
  match scale? negative m (exponent + (wholeRest.length : Int) - (taken : Int)) with
  | some x => pure (.float x)
  | none => Reader.fail

/-- The exponent of a number, if it has one. -/
def exponentPart : Reader (Option Int) := do
  match ← Reader.peek with
  | some 'e' | some 'E' =>
    let _ ← Reader.next
    let negative ← Reader.accept "-"
    unless negative do
      let _ ← Reader.accept "+"
    let n := Number.decimalValue (← Number.digits1)
    pure (some (if negative then -n else n))
  | _ => pure none

/-- A number. -/
def number : Reader Json := do
  let negative ← Reader.accept "-"
  let whole ← Number.digits1
  if whole.head? = some '0' && 1 < whole.length then Reader.fail
  let fraction ←
    if ← Reader.accept "." then some <$> Number.digits1 else pure none
  let exponent ← exponentPart
  if fraction.isNone && exponent.isNone then
    let n := Number.decimalValue whole
    if !negative && n ≤ wordMax then pure (.int n)
    else if negative && 0 < n && n ≤ UInt64.size / 2 then pure (.int (-n))
    else floating negative whole [] 0
  else floating negative whole (fraction.getD []) (exponent.getD 0)

/-- The items of an array after its bracket. -/
def arrayRest (item : Reader Json) : Reader Json := do
  blanks
  if ← Reader.accept "]" then pure (.arr [])
  else
    Reader.iterate (fun (read : List Json) => do
      let value ← item
      blanks
      if ← Reader.accept "," then
        pure (.inl (value :: read))
      else
        Reader.char ']'
        pure (.inr (.arr (value :: read).reverse))) []

/-- The members of an object after its brace. -/
def objectRest (item : Reader Json) : Reader Json := do
  blanks
  if ← Reader.accept "\x7d" then pure (.obj [])
  else
    Reader.iterate (fun (read : List (String × Json)) => do
      blanks
      Reader.char '"'
      let key ← stringRest
      blanks
      Reader.char ':'
      let value ← item
      blanks
      let read := insert key value read
      if ← Reader.accept "," then
        pure (.inl read)
      else
        Reader.char '\x7d'
        pure (.inr (.obj read))) []

/-- A value, with the blanks before it, whose arrays and objects hold
`item`; there are none where nothing may be held. -/
def valueOf (item : Option (Reader Json)) : Reader Json := do
  blanks
  match ← Reader.peek with
  | some '"' =>
    let _ ← Reader.next
    .str <$> stringRest
  | some '[' =>
    let _ ← Reader.next
    match item with
    | none => Reader.fail
    | some item => arrayRest item
  | some '\x7b' =>
    let _ ← Reader.next
    match item with
    | none => Reader.fail
    | some item => objectRest item
  | some 'n' =>
    Reader.literal "null"
    pure .null
  | some 't' =>
    Reader.literal "true"
    pure (.bool true)
  | some 'f' =>
    Reader.literal "false"
    pure (.bool false)
  | _ => number

/-- A value that nests at most `depth` deep. -/
def value : (depth : Nat) → Reader Json
  | 0 => valueOf none
  | depth + 1 => valueOf (some (value depth))

/-- How deep arrays and objects nest. -/
def depthLimit : Nat := 127

/-- The value that `text` holds. -/
def parse? (text : String) : Option Json :=
  (do
    let read ← value depthLimit
    blanks
    pure read : Reader Json).readAll text

end MessageIntake.Json
