import MessageIntake.Config.Basic
import MessageIntake.Number.Literal
import MessageIntake.Toml.Basic

/-!
# Values of settings

What a file or a variable gives for a setting, and how a setting takes
it: each of the four converts from several kinds of value, and refuses
the rest.
-/

namespace MessageIntake.Config

/-- A value that is given for a setting. Of a table only the keys
matter. -/
inductive Value where
  | nothing
  | truth (value : Bool)
  | whole (value : Int)
  | real (value : Binary64)
  | text (value : String)
  | list
  | table (keys : List String)
  deriving DecidableEq, Repr

namespace Value

/-- The truth value of a word, whatever its case. -/
def truthOfWord? (s : String) : Option Bool :=
  match s.toLower with
  | "true" | "on" | "yes" => some true
  | "false" | "off" | "no" => some false
  | _ => none

/-- The least and the greatest whole number of 64 bits. -/
def int64Min : Int := Int64.minValue.toInt
def int64Max : Int := Int64.maxValue.toInt

/-- A floating-point number as a whole one: rounded, a half away from
zero, and brought into range. -/
def clamp (x : Binary64) : Int64 :=
  match x with
  | .nan => 0
  | .infinite negative => Int64.ofInt (if negative then int64Min else int64Max)
  | .finite .. => Int64.ofInt (max int64Min (min int64Max (x.round?.getD 0)))

/-- The value as a whole number of 64 bits. -/
def toInt64? : Value → Option Int64
  | truth b => some (if b then 1 else 0)
  | whole n => if int64Min ≤ n ∧ n ≤ int64Max then some (Int64.ofInt n) else none
  | real x => some (clamp x)
  | text s =>
    match truthOfWord? s with
    | some b => some (if b then 1 else 0)
    | none => Number.int64? s
  | nothing | list | table _ => none

/-- The value as a truth value. -/
def toBool? : Value → Option Bool
  | truth b => some b
  | whole n => some (n ≠ 0)
  | real x => some !x.isZero
  | text s =>
    match s with
    | "1" => some true
    | "0" => some false
    | _ => truthOfWord? s
  | nothing | list | table _ => none

/-- The value as text. -/
def toText? : Value → Option String
  | truth b => some (if b then "true" else "false")
  | whole n => some (toString n)
  | real x => some x.text
  | text s => some s
  | nothing | list | table _ => none

/-- The value as a text that may be missing. -/
def toOptionalText? : Value → Option (Option String)
  | nothing => some none
  | value => value.toText?.map some

/-- The value as an acknowledgment mode: its name, or a table with that
name as its only key. -/
def toAckMode? : Value → Option AckMode
  | text name => AckMode.ofName? name
  | table [name] => AckMode.ofName? name
  | _ => none

/-- The value that a JSON file gives. -/
def ofJson : Json → Value
  | .null => nothing
  | .bool b => truth b
  | .int n => whole n
  | .float x => real x
  | .str s => text s
  | .arr _ => list
  | .obj members => table (members.map Prod.fst)

/-- The value that a TOML file gives. -/
def ofToml : Toml → Value
  | .str s => text s
  | .int n => whole n.toInt
  | .float x => real x
  | .bool b => truth b
  | .moment m => text m.text
  | .arr _ | .elements _ _ => list
  | .table _ members => table (members.map Prod.fst)

end Value

/-- Reads the four settings from what is given for them; one that is not
given has its default. -/
def ofValues? (given : String → Option Value) : Option Config := do
  let base : Config := {}
  let take {α : Type} (name : String) (convert : Value → Option α) (default : α) : Option α :=
    match given name with
    | none => some default
    | some value => convert value
  pure
    { ackMode := ← take "ack_mode" Value.toAckMode? base.ackMode
      receiveTimeoutMillis := ←
        take "receive_timeout_millis" Value.toInt64? base.receiveTimeoutMillis
      requeueOnFailure := ← take "requeue_on_failure" Value.toBool? base.requeueOnFailure
      consumerTag := ← take "consumer_tag" Value.toOptionalText? base.consumerTag }

end MessageIntake.Config
