import MessageIntake.Config.Value
import MessageIntake.Text.Reader

/-!
# Keys that are paths

The key of a setting may be a path: a name, and after it names behind
points and indices in brackets, as in `ack_mode.auto` or `tags[0]`. A
key of any other form is a name by itself. What is given for a path is
placed inside the setting that the path begins with: `Settings.set`.
-/

namespace MessageIntake.Config

open Text (Reader)

/-- A step from a value to one inside it. -/
inductive Step where
  | member (name : String)
  | element (index : Int)
  deriving DecidableEq, Repr

/-- The name of a setting, and the steps into it. -/
structure KeyPath where
  setting : String
  steps : List Step := []
  deriving DecidableEq, Repr

namespace KeyPath

def isNamePart (c : Char) : Bool := c.isAlphanum || c = '_' || c = '-'

def name : Reader String := do
  let read ← Reader.takeWhile isNamePart
  if read.isEmpty then Reader.fail else pure (String.ofList read)

/-- An index with its closing bracket; it fits 64 bits with a sign. -/
def index : Reader Int := do
  let blanks := Reader.takeWhile fun c => c = ' ' || c = '\t'
  let _ ← blanks
  let negative ← Reader.accept "-"
  let magnitude : Int := Number.decimalValue (← Number.digits1)
  let _ ← blanks
  Reader.char ']'
  let i := if negative then -magnitude else magnitude
  if Value.int64Min ≤ i ∧ i ≤ Value.int64Max then pure i else Reader.fail

/-- A whole path. -/
def reader : Reader KeyPath := do
  let setting ← name
  Reader.iterate (fun (read : List Step) => do
    if ← Reader.accept "." then pure (.inl (.member (← name) :: read))
    else if ← Reader.accept "[" then pure (.inl (.element (← index) :: read))
    else pure (.inr { setting, steps := read.reverse })) []

/-- The path that a key is. -/
def ofKey (key : String) : KeyPath := (reader.readAll key).getD { setting := key }

end KeyPath

/-! ## Placing values -/

namespace Value

/-- The keys of a value; it has none unless it is a table. -/
def keys : Value → List String
  | table keys => keys
  | _ => []

/-- The value `old`, if there is one, after `given` is placed in it. A
table is merged into a table, and any other value takes the place of the
old one. What a step leads through becomes a table or a list. -/
def place (given : Value) (steps : List Step) (old : Option Value) : Value :=
  let had := (old.map keys).getD []
  match steps, given with
  | [], table new => table (new.foldl (fun keys key => keys.insert key) had)
  | [], given => given
  | .member name :: _, _ => table (had.insert name)
  | .element _ :: _, _ => list

end Value

/-- Settings by name, as far as they are given. -/
structure Settings where
  entries : List (String × Value) := []

namespace Settings

def get? (s : Settings) (setting : String) : Option Value := s.entries.lookup setting

/-- Gives a key its value. -/
def set (s : Settings) (key : String) (given : Value) : Settings :=
  let path := KeyPath.ofKey key
  ⟨(path.setting, given.place path.steps (s.get? path.setting)) ::
    s.entries.filter (·.1 != path.setting)⟩

/-- Gives each key its value in turn. -/
def setAll (s : Settings) (given : List (String × Value)) : Settings :=
  given.foldl (fun s (key, value) => s.set key value) s

theorem lookup_filter_ne {name sought : String} (h : sought ≠ name)
    (entries : List (String × Value)) :
    (entries.filter (·.1 != name)).lookup sought = entries.lookup sought := by
  induction entries with
  | nil => rfl
  | cons head rest ih =>
    obtain ⟨k, v⟩ := head
    by_cases hk : k = name <;> grind

/-- Only the setting that a key begins with changes. -/
theorem get?_set (s : Settings) (key setting : String) (given : Value) :
    (s.set key given).get? setting =
      if setting = (KeyPath.ofKey key).setting then
        some (given.place (KeyPath.ofKey key).steps (s.get? setting))
      else s.get? setting := by
  split
  case isTrue h => simp [set, get?, h]
  case isFalse h =>
    have hb : (setting == (KeyPath.ofKey key).setting) = false := by simpa using h
    simp [set, get?, List.lookup_cons, hb, lookup_filter_ne h]

end Settings

end MessageIntake.Config
