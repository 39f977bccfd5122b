import MessageIntake.Config.Value

/-!
# Settings in the environment

A variable whose name begins with the prefix, in any case, gives a value
for the key that the rest of its name is. Its text is taken for a truth
value, a whole number or a floating-point number where it is one.
-/

namespace MessageIntake.Config

/-- What the names of variables begin with, before an underscore. -/
def variablePrefix : String := "RABBITMQ_CONSUMER"

/-- Small letters for capitals. Besides the seven-bit letters only the
Kelvin sign has a small form that a setting's name can hold. -/
def lowerName (name : String) : String :=
  (name.map fun c => if c = '\u212a' then 'k' else c).toLower

/-- The key that a variable is for. -/
def keyOf? (variableName : String) : Option String :=
  let start := (variablePrefix ++ "_").toLower.toList
  let name := (lowerName variableName).toList
  if start.isPrefixOf name then some (String.ofList (name.drop start.length)) else none

/-- The value that the text of a variable gives. -/
def Value.ofVariable (s : String) : Value :=
  match s.toLower with
  | "true" => truth true
  | "false" => truth false
  | _ =>
    match Number.int64? s with
    | some n => whole n.toInt
    | none =>
      match Number.binary64? s with
      | some x => real x
      | none => text s

/-- Variables by name. -/
abbrev Environment := List (String × String)

/-- What the environment gives, by the keys that the names of its
variables hold. -/
def Environment.given (environment : Environment) : List (String × Value) :=
  environment.filterMap fun (name, s) => (keyOf? name).map fun key => (key, Value.ofVariable s)

end MessageIntake.Config
