import MessageIntake.Number.Digits

/-!
# Dates and times in TOML

A moment is a date, a time of day, or both; with both it may say how far
its clock is from universal time. `Moment.ofText?` reads a moment and
`Moment.text` writes it: a date and a time are parted by `T`, a fraction
of a second has nine digits at most and no zeros at its end, and the
offset of universal time itself is `Z` or zero, as it was given.
-/

namespace MessageIntake.Toml

open Text (Reader)

structure Date where
  year : Nat
  month : Nat
  day : Nat
  deriving DecidableEq, Repr

/-- A time of day. The seconds may be missing, and only a second has a
fraction. -/
structure TimeOfDay where
  hour : Nat
  minute : Nat
  second : Option Nat := none
  nanosecond : Option Nat := none
  deriving DecidableEq, Repr

/-- How far a clock is from universal time. -/
inductive Offset where
  | universal
  | minutes (ahead : Int)
  deriving DecidableEq, Repr

inductive Moment where
  | date (date : Date)
  | time (time : TimeOfDay)
  | dateTime (date : Date) (time : TimeOfDay) (offset : Option Offset)
  deriving DecidableEq, Repr

/-! ## The calendar -/

def isLeapYear (year : Nat) : Bool := year % 4 = 0 && (year % 100 != 0 || year % 400 = 0)

/-- How many days a month has. -/
def daysInMonth (year month : Nat) : Nat :=
  match month with
  | 2 => if isLeapYear year then 29 else 28
  | 4 | 6 | 9 | 11 => 30
  | _ => 31

/-- Whether a date is in the calendar. -/
def Date.isValid (d : Date) : Bool :=
  1 ≤ d.month && d.month ≤ 12 && 1 ≤ d.day && d.day ≤ daysInMonth d.year d.month

/-- Whether a time is on the clock; a minute may have a leap second. -/
def TimeOfDay.isValid (t : TimeOfDay) : Bool :=
  t.hour ≤ 23 && t.minute ≤ 59 && t.second.all (· ≤ 60)

/-! ## Reading -/

/-- A number of exactly `count` digits. -/
def fixedDigits (count : Nat) : Reader Nat := do
  let read ← Number.digits
  if read.length = count then pure (Number.decimalValue read) else Reader.fail

def Date.reader : Reader Date := do
  let year ← fixedDigits 4
  Reader.char '-'
  let month ← fixedDigits 2
  Reader.char '-'
  let day ← fixedDigits 2
  let read : Date := { year, month, day }
  if read.isValid then pure read else Reader.fail

/-- Digits after a decimal point as billionths; those past the ninth are
dropped. -/
def billionths (digits : List Char) : Nat := Number.decimalValue ((digits.take 9).rightpad 9 '0')

def TimeOfDay.reader : Reader TimeOfDay := do
  let hour ← fixedDigits 2
  Reader.char ':'
  let minute ← fixedDigits 2
  let second ← if ← Reader.accept ":" then some <$> fixedDigits 2 else pure none
  let nanosecond ←
    if second.isSome then
      if ← Reader.accept "." then
        some <$> billionths <$> Number.digits1
      else pure none
    else pure none
  let read : TimeOfDay := { hour, minute, second, nanosecond }
  if read.isValid then pure read else Reader.fail

/-- An offset, if one follows. -/
def Offset.reader : Reader (Option Offset) := do
  match ← Reader.peek with
  | some 'Z' | some 'z' =>
    let _ ← Reader.next
    pure (some .universal)
  | some '+' | some '-' =>
    let behind ← Reader.accept "-"
    unless behind do Reader.char '+'
    let hours ← fixedDigits 2
    Reader.char ':'
    let minutes ← fixedDigits 2
    if 23 < hours || 59 < minutes then Reader.fail
    let total : Int := 60 * hours + minutes
    pure (some (.minutes (if behind then -total else total)))
  | _ => pure none

/-- A moment. A date begins with a year, a time with an hour. -/
def Moment.reader : Reader Moment := do
  let rest ← get
  if (rest.dropWhile Char.isDigit).head? = some '-' then
    let d ← Date.reader
    match ← Reader.peek with
    | some 'T' | some 't' | some ' ' =>
      let _ ← Reader.next
      let t ← TimeOfDay.reader
      pure (.dateTime d t (← Offset.reader))
    | _ => pure (.date d)
  else .time <$> TimeOfDay.reader

/-- The moment that characters are. -/
def Moment.ofText? (s : List Char) : Option Moment := reader.readAll (String.ofList s)

/-! ## Writing -/

/-- A number of at least `width` digits. -/
def padded (width n : Nat) : String := String.ofList ((Nat.toDigits 10 n).leftpad width '0')

def Date.text (d : Date) : String :=
  padded 4 d.year ++ "-" ++ padded 2 d.month ++ "-" ++ padded 2 d.day

/-- The digits of a fraction, without the zeros at its end but with one
digit at least. -/
def fractionText (nanosecond : Nat) : String :=
  match ((padded 9 nanosecond).toList.reverse.dropWhile (· = '0')).reverse with
  | [] => "0"
  | shown => String.ofList shown

def TimeOfDay.text (t : TimeOfDay) : String :=
  padded 2 t.hour ++ ":" ++ padded 2 t.minute ++
    (match t.second with
      | none => ""
      | some second => ":" ++ padded 2 second) ++
    match t.nanosecond with
    | none => ""
    | some nanosecond => "." ++ fractionText nanosecond

def Offset.text : Offset → String
  | universal => "Z"
  | minutes ahead =>
    let sign := if ahead < 0 then "-" else "+"
    sign ++ padded 2 (ahead.natAbs / 60) ++ ":" ++ padded 2 (ahead.natAbs % 60)

def Moment.text : Moment → String
  | date d => d.text
  | time t => t.text
  | dateTime d t o =>
    d.text ++ "T" ++ t.text ++
      match o with
      | none => ""
      | some o => o.text

end MessageIntake.Toml
