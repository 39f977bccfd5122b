import MessageIntake.Error

/-!
# Log levels

Five levels, read without regard to case. `Level.ofText_text` says that
every level's name reads back as that level.
-/

namespace MessageIntake

/-- How much a log record matters. -/
inductive Level where
  | error
  | warn
  | info
  | debug
  | trace
  deriving DecidableEq, Repr

namespace Level

/-- The name of the variable that sets the level. -/
def variableName : String := "RUST_LOG"

def text : Level → String
  | error => "ERROR"
  | warn => "WARN"
  | info => "INFO"
  | debug => "DEBUG"
  | trace => "TRACE"

/-- The level of a name in capitals. -/
def ofName? : String → Option Level
  | "ERROR" => some error
  | "WARN" => some warn
  | "INFO" => some info
  | "DEBUG" => some debug
  | "TRACE" => some trace
  | _ => none

/-- The level that `s` names, the case of its seven-bit letters aside. -/
def ofText (s : String) : Result Level :=
  match ofName? s.toUpper with
  | some level => .ok level
  | none =>
    .error (.configInvalidValue variableName s "expected one of ERROR, WARN, INFO, DEBUG, TRACE")

def inspect (level : Level) : String := Text.variant "Level" (Text.quoted level.text)

/-- The level that a program starts with: the one its environment names,
or `info` when it names none. -/
def ofEnvironment : Option String → Result Level
  | none => .ok info
  | some s => ofText s

theorem toUpper_text (level : Level) : level.text.toUpper = level.text := by
  cases level <;> decide +kernel

theorem ofText_text (level : Level) : ofText level.text = .ok level := by
  rw [ofText, toUpper_text]
  cases level <;> rfl

end Level

end MessageIntake
