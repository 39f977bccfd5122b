/-!
# Readers

A reader takes characters from the front of the text that is left, or
fails. Repetition is `iterate`: a step either goes on with a new state
or ends; as many steps are allowed as characters are left, and one more,
so a step that always takes a character never runs out.
-/

namespace MessageIntake.Text

/-- A parser of the text that is left. -/
abbrev Reader := StateT (List Char) Option

namespace Reader

variable {α β γ : Type}

def fail : Reader α := fun _ => none

/-- The next character, which stays. -/
def peek : Reader (Option Char) := fun s => some (s.head?, s)

/-- Takes the next character. -/
def next : Reader Char
  | [] => none
  | c :: s => some (c, s)

/-- Takes a character that satisfies `p`. -/
def nextIf (p : Char → Bool) : Reader Char
  | [] => none
  | c :: s => if p c then some (c, s) else none

/-- Takes the character `c`. -/
def char (c : Char) : Reader Unit := do
  let _ ← nextIf (· = c)

/-- Takes `text` if the rest begins with it, and says whether it did. -/
def accept (text : String) : Reader Bool := fun s =>
  if text.toList.isPrefixOf s then some (true, s.drop text.length) else some (false, s)

/-- Takes `text`. -/
def literal (text : String) : Reader Unit := do
  unless ← accept text do fail

/-- Takes the characters up to the first that does not satisfy `p`. -/
def takeWhile (p : Char → Bool) : Reader (List Char) := fun s =>
  some (s.takeWhile p, s.dropWhile p)

/-- Whether nothing is left. -/
def atEnd : Reader Bool := fun s => some (s.isEmpty, s)

/-- At most `fuel` steps from `b`. -/
def iterateUpTo (step : β → Reader (β ⊕ γ)) : Nat → β → Reader γ
  | 0, _ => fail
  | fuel + 1, b => do
    match ← step b with
    | .inl b => iterateUpTo step fuel b
    | .inr result => pure result

/-- Repeats `step` from `b` until it ends. -/
def iterate (step : β → Reader (β ⊕ γ)) (b : β) : Reader γ := fun s =>
  iterateUpTo step (s.length + 1) b s

/-- Reads all of `s`. -/
def readAll (r : Reader α) (s : String) : Option α :=
  match r s.toList with
  | some (a, []) => some a
  | _ => none

end Reader

end MessageIntake.Text
