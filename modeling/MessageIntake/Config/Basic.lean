import MessageIntake.AckMode
import MessageIntake.Json.Record
import MessageIntake.Timeout

/-!
# Consumer configurations

Four settings, each with a default. Any combination is a configuration;
`Config.validate` says whether it may be used: a consumer tag, if there
is one, has 1 to 255 bytes. The JSON form is a record of the four.
-/

namespace MessageIntake

/-- The settings of a consumer. -/
structure Config where
  ackMode : AckMode := .manual
  /-- How long a receive call waits; it does not if zero or less. -/
  receiveTimeoutMillis : Int64 := 60000
  requeueOnFailure : Bool := true
  consumerTag : Option String := none
  deriving DecidableEq, Repr, Inhabited

namespace Config

/-- The longest consumer tag, in bytes. -/
def maxConsumerTag : Nat := 255

/-- Whether a text may be a consumer tag. -/
def validateConsumerTag (tag : String) : Result Unit :=
  if tag.utf8ByteSize = 0 then
    .error (.configInvalidValue "consumer_tag" tag "must not be empty")
  else if maxConsumerTag < tag.utf8ByteSize then
    .error (.configInvalidValue "consumer_tag" tag s!"must be at most {maxConsumerTag} bytes")
  else .ok ()

/-- Whether the configuration may be used. -/
def validate (c : Config) : Result Unit :=
  match c.consumerTag with
  | none => .ok ()
  | some tag => validateConsumerTag tag

/-- How long a receive call waits. -/
def receiveTimeout (c : Config) : Timeout := .ofMillis c.receiveTimeoutMillis

/-! ## Building step by step -/

/-- One setting. -/
inductive Setter where
  | ackMode (mode : AckMode)
  | receiveTimeoutMillis (millis : Int64)
  | requeueOnFailure (requeue : Bool)
  | consumerTag (tag : String)
  deriving DecidableEq, Repr

/-- Changes one setting. -/
def apply (c : Config) : Setter → Config
  | .ackMode mode => { c with ackMode := mode }
  | .receiveTimeoutMillis millis => { c with receiveTimeoutMillis := millis }
  | .requeueOnFailure requeue => { c with requeueOnFailure := requeue }
  | .consumerTag tag => { c with consumerTag := some tag }

/-- The default configuration after `setters`, unchecked. -/
def buildUnchecked (setters : List Setter) : Config := setters.foldl apply {}

/-- The default configuration after `setters`, if it may be used. -/
def build (setters : List Setter) : Result Config :=
  let c := buildUnchecked setters
  match c.validate with
  | .ok _ => .ok c
  | .error e => .error e

/-! ## JSON form -/

/-- The names of the settings, in order. -/
def fieldNames : List String :=
  ["ack_mode", "receive_timeout_millis", "requeue_on_failure", "consumer_tag"]

def toJson (c : Config) : Json :=
  .obj [("ack_mode", .str c.ackMode.text), ("receive_timeout_millis", .int c.receiveTimeoutMillis.toInt),
    ("requeue_on_failure", .bool c.requeueOnFailure), ("consumer_tag", .ofText? c.consumerTag)]

end Config

/-- A mode is read from its name, or from an object whose only member has
the mode's name and is null. -/
def AckMode.ofJson? : Json → Option AckMode
  | .str name => ofName? name
  | .obj [(name, .null)] => ofName? name
  | _ => none

namespace Config

/-- A word of 64 bits with a sign. -/
def int64? (j : Json) : Option Int64 :=
  (j.int? Int64.minValue.toInt Int64.maxValue.toInt).map Int64.ofInt

/-- Reads the JSON form; a setting that is not given has its default. -/
def ofJson? (j : Json) : Option Config := do
  let given ← j.fields? fieldNames
  let base : Config := {}
  pure
    { ackMode := ← Json.orElse base.ackMode AckMode.ofJson? (given "ack_mode")
      receiveTimeoutMillis := ←
        Json.orElse base.receiveTimeoutMillis int64? (given "receive_timeout_millis")
      requeueOnFailure := ←
        Json.orElse base.requeueOnFailure Json.truth? (given "requeue_on_failure")
      consumerTag := ← Json.nullable Json.text? (given "consumer_tag") }

end Config

end MessageIntake
