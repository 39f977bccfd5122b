/-!
# UTF-8

Bytes as characters. `step` takes the next character, or the longest run
of bytes at the front that begins some character but cannot be completed
(at least one byte). `validPrefix` counts the bytes before the first such
run; `decodeLossy` puts a replacement character in place of each.
-/

namespace MessageIntake.Text.Utf8

/-- What stands at the front of some bytes. -/
inductive Front where
  | char (c : Char)
  | invalid
  deriving DecidableEq, Repr

/-- Whether a byte goes on with a character. -/
def isContinuation (b : UInt8) : Bool := 0x80 ≤ b && b ≤ 0xbf

/-- How many bytes follow the first byte of a character, and the bounds
of the second. -/
def shape? (b : UInt8) : Option (Nat × UInt8 × UInt8) :=
  if 0xc2 ≤ b && b ≤ 0xdf then some (1, 0x80, 0xbf)
  else if b = 0xe0 then some (2, 0xa0, 0xbf)
  else if b = 0xed then some (2, 0x80, 0x9f)
  else if 0xe1 ≤ b && b ≤ 0xef then some (2, 0x80, 0xbf)
  else if b = 0xf0 then some (3, 0x90, 0xbf)
  else if 0xf1 ≤ b && b ≤ 0xf3 then some (3, 0x80, 0xbf)
  else if b = 0xf4 then some (3, 0x80, 0x8f)
  else none

/-- The six bits of a continuation byte after the bits so far. -/
def extend (bits : Nat) (b : UInt8) : Nat := bits * 64 + b.toNat % 64

/-- What the first byte of a character contributes when `count` follow. -/
def leadBits (b : UInt8) (count : Nat) : Nat := b.toNat % 1 <<< (6 - count)

/-- The front of the bytes after a first byte: `count` continuation bytes
are to come, the bits so far are `bits`, and `length` bytes are taken. -/
def continueChar : (count : Nat) → (bits length : Nat) → List UInt8 → Front × Nat
  | 0, bits, length, _ => (.char (Char.ofNat bits), length)
  | count + 1, bits, length, b :: rest =>
    if isContinuation b then continueChar count (extend bits b) (length + 1) rest
    else (.invalid, length)
  | _ + 1, _, length, [] => (.invalid, length)

/-- The front of non-empty bytes, and how many bytes it takes. -/
def step (b : UInt8) (rest : List UInt8) : Front × Nat :=
  if b < 0x80 then (.char (Char.ofUInt8 b), 1)
  else match shape? b, rest with
    | some (count, low, high), second :: rest =>
      if low ≤ second && second ≤ high then
        continueChar (count - 1) (extend (leadBits b count) second) 2 rest
      else (.invalid, 1)
    | _, _ => (.invalid, 1)

/-- The fronts of bytes, from the first to the last. -/
def fronts : (fuel : Nat) → List UInt8 → List (Front × Nat)
  | 0, _ => []
  | _, [] => []
  | fuel + 1, b :: rest =>
    let (front, length) := step b rest
    (front, length) :: fronts fuel (rest.drop (length - 1))

/-- The fronts of all of `bytes`. -/
def scan (bytes : ByteArray) : List (Front × Nat) := fronts bytes.size bytes.toList

/-- The characters of `bytes`, with `\ufffd` for each run that is no
character. -/
def decodeLossy (bytes : ByteArray) : String :=
  String.ofList ((scan bytes).map fun (front, _) => match front with
    | .char c => c
    | .invalid => '\ufffd')

/-- The characters of `bytes` if all of them are characters; else the
number of bytes before the first run that is none. -/
def decode (bytes : ByteArray) : Except Nat String :=
  let parts := scan bytes
  let valid := parts.takeWhile fun (front, _) => front != .invalid
  if valid.length = parts.length then .ok (decodeLossy bytes)
  else .error (valid.foldl (fun n (_, length) => n + length) 0)

end MessageIntake.Text.Utf8
