import MessageIntake.Number.Digits

/-!
# Binary floating point, 64 bits wide

A number is `m * 2 ^ e` with `m` below `2 ^ 53` and `e` at least `-1074`,
or an infinity, or not a number. `ofRatio` rounds a quotient to the
nearest such number, a tie to the even one; every reading of a number
goes through it. `shortest` finds the fewest decimal digits that read
back as the number, and of those the nearest; which of two that are as
near is left to the writer of the number.
-/

namespace MessageIntake

/-- A floating-point number. A finite one is `mantissa * 2 ^ exponent`,
negated if `negative`; zero has a sign. -/
inductive Binary64 where
  | nan
  | infinite (negative : Bool)
  | finite (negative : Bool) (mantissa : Nat) (exponent : Int)
  deriving DecidableEq, Repr

namespace Binary64

/-- Bits of a mantissa. -/
def precision : Nat := 53

/-- The least exponent. -/
def leastExponent : Int := -1074

/-- The greatest exponent. -/
def greatestExponent : Int := 971

def zero (negative : Bool) : Binary64 := .finite negative 0 leastExponent

/-- The quotient rounded to the nearest whole number, a tie to the even
one. -/
def roundDiv (num den : Nat) : Nat :=
  let quotient := num / den
  let twice := 2 * (num % den)
  if twice < den then quotient
  else if den < twice then quotient + 1
  else if quotient % 2 = 0 then quotient else quotient + 1

/-- The number nearest to `num / den`, for positive `den`. -/
def ofRatio (negative : Bool) (num den : Nat) : Binary64 :=
  if num = 0 then zero negative
  else
    let scaled := fun (e : Int) => (num <<< (-e).toNat, den <<< e.toNat)
    -- The logarithms are whole, so the quotient has 53 bits at `guess` or at one less.
    let guess : Int := (Nat.log2 num : Int) - (Nat.log2 den : Int) - 52
    let (n, d) := scaled guess
    let exact := if n / d < 1 <<< 52 then guess - 1 else guess
    let e := max exact leastExponent
    let (n, d) := scaled e
    let m := roundDiv n d
    -- Rounding up may have carried into a bit more.
    let (m, e) := if m = 1 <<< precision then (1 <<< 52, e + 1) else (m, e)
    if greatestExponent < e then .infinite negative else .finite negative m e

/-- The number nearest to `digits * 10 ^ exponent`. Exponents far outside
the range of the format are decided without computing the power. -/
def ofDecimal (negative : Bool) (digits : Nat) (exponent : Int) : Binary64 :=
  if digits = 0 then zero negative
  else if 400 < exponent then .infinite negative
  else if exponent + (Nat.log2 digits : Int) < -1200 then zero negative
  else ofRatio negative (digits * Number.tenTo exponent.toNat) (Number.tenTo (-exponent).toNat)

def isNegative : Binary64 → Bool
  | nan => false
  | infinite negative => negative
  | finite negative _ _ => negative

/-- Whether the number is zero, of either sign. -/
def isZero : Binary64 → Bool
  | finite _ 0 _ => true
  | _ => false

/-- The magnitude of `m * 2 ^ e` as a quotient. -/
def ratio (m : Nat) (e : Int) : Nat × Nat := (m <<< e.toNat, 1 <<< (-e).toNat)

/-- The product of two finite numbers, rounded. -/
def mul : Binary64 → Binary64 → Binary64
  | finite s m e, finite t n f =>
    let (num, den) := ratio (m * n) (e + f)
    ofRatio (s != t) num den
  | _, _ => nan

/-- The quotient of two finite numbers, rounded; the divisor is not
zero. -/
def div : Binary64 → Binary64 → Binary64
  | finite s m e, finite t n f =>
    let (num, den) := ratio m (e - f)
    ofRatio (s != t) num (den * n)
  | _, _ => nan

/-- The nearest whole number, a half away from zero; none unless the
number is finite. -/
def round? : Binary64 → Option Int
  | finite negative m e =>
    let (num, den) := ratio m e
    let magnitude : Nat := (2 * num + den) / (2 * den)
    some (if negative then -magnitude else magnitude)
  | _ => none

/-! ## Shortest decimal digits -/

/-- Which of two decimals is written for a number right between them. -/
inductive Tie where
  | toEven
  | away
  deriving DecidableEq, Repr

/-- Decimal digits and the power of ten that they are multiplied by. -/
structure Decimal where
  digits : Nat
  exponent : Int
  deriving DecidableEq, Repr

/-- How many powers of ten lie between one and `num / den`: the greatest
`k` with `10 ^ k ≤ num / den`. The base-two logarithms give a guess that
is at most one too high. -/
def decimalExponent (num den : Nat) : Int :=
  let bits : Int := (Nat.log2 num : Int) - (Nat.log2 den : Int)
  -- The factor is the logarithm of two in base ten.
  let guess : Int := (bits * 30103) / 100000 + 1
  let reaches := fun (k : Int) => den * Number.tenTo k.toNat ≤ num * Number.tenTo (-k).toNat
  if reaches guess then guess
  else if reaches (guess - 1) then guess - 1
  else guess - 2

/-- The decimals of `count` digits nearest to `num / den` from below and
from above. -/
def neighbours (num den : Nat) (count : Nat) : Decimal × Decimal :=
  let e := decimalExponent num den - (count : Int) + 1
  let low := num * Number.tenTo (-e).toNat / (den * Number.tenTo e.toNat)
  (⟨low, e⟩, ⟨low + 1, e⟩)

/-- Whether `d`, read back, is the positive number `m * 2 ^ e`. -/
def readsBack (m : Nat) (e : Int) (d : Decimal) : Bool :=
  ofDecimal false d.digits d.exponent = .finite false m e

/-- Whether the lower neighbour is to be written for `num / den` rather
than the upper: it is nearer, or as near and `tie` says so. -/
def prefersLow (tie : Tie) (num den : Nat) (low : Decimal) : Bool :=
  let value := 2 * (num * Number.tenTo (-low.exponent).toNat)
  let middle := (2 * low.digits + 1) * (den * Number.tenTo low.exponent.toNat)
  value < middle || (value = middle && tie = .toEven && low.digits % 2 = 0)

/-- The decimal of `count` digits that reads back as `m * 2 ^ e`, the
nearer one where two do. -/
def decimalOf? (tie : Tie) (m : Nat) (e : Int) (count : Nat) : Option Decimal :=
  let (num, den) := ratio m e
  let (low, high) := neighbours num den count
  match readsBack m e low, readsBack m e high with
  | true, true => some (if prefersLow tie num den low then low else high)
  | true, false => some low
  | false, true => some high
  | false, false => none

/-- The fewest digits that read back as the positive number `m * 2 ^ e`,
and of those the nearest. Seventeen digits always do. -/
def shortest (tie : Tie) (m : Nat) (e : Int) : Decimal :=
  ((List.range 17).findSome? fun k => decimalOf? tie m e (k + 1)).getD
    (neighbours (ratio m e).1 (ratio m e).2 17).1

/-- Digits in full, without an exponent: zeros fill up to the point on
either side, and there is no point without a fraction. -/
def Decimal.text (d : Decimal) : String :=
  let digits := Nat.toDigits 10 d.digits
  if 0 ≤ d.exponent then
    String.ofList (digits ++ List.replicate d.exponent.toNat '0')
  else
    let places := (-d.exponent).toNat
    let padded := digits.leftpad (places + 1) '0'
    let whole := padded.take (padded.length - places)
    let fraction := (padded.drop (padded.length - places)).reverse.dropWhile (· = '0')
    match fraction.reverse with
    | [] => String.ofList whole
    | shown => String.ofList (whole ++ '.' :: shown)

/-- The number in full with the fewest digits that read back; a tie goes
away from zero. -/
def text : Binary64 → String
  | nan => "NaN"
  | infinite negative => if negative then "-inf" else "inf"
  | finite negative m e =>
    (if negative then "-" else "") ++ (if m = 0 then "0" else (shortest .away m e).text)

end Binary64

end MessageIntake
