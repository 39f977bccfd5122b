import MessageIntake.Delivery.Headers
import MessageIntake.Json.Record
import MessageIntake.Text.Inspection

/-!
# Message properties

What travels with a message beside its body: thirteen fields, all but
the headers optional. Here are the record, its text for a developer, and
its JSON form: an object of thirteen members, in which an absent field
is null.
-/

namespace MessageIntake

/-- Metadata of a message. -/
structure Properties where
  contentType : Option String := none
  contentEncoding : Option String := none
  headers : Headers := .empty
  /-- One for a transient message, two for a persistent one. -/
  deliveryMode : Option UInt8 := none
  priority : Option UInt8 := none
  correlationId : Option String := none
  replyTo : Option String := none
  expiration : Option String := none
  messageId : Option String := none
  /-- Seconds since the epoch. -/
  timestamp : Option UInt64 := none
  kind : Option String := none
  userId : Option String := none
  appId : Option String := none
  deriving DecidableEq, Repr, Inhabited

namespace Properties

def withContentType (p : Properties) (value : String) : Properties :=
  { p with contentType := some value }

def withHeader (p : Properties) (key value : String) : Properties :=
  { p with headers := p.headers.insert key value }

def withCorrelationId (p : Properties) (value : String) : Properties :=
  { p with correlationId := some value }

def withReplyTo (p : Properties) (value : String) : Properties :=
  { p with replyTo := some value }

/-- The text of a header. -/
def header? (p : Properties) (key : String) : Option String := p.headers.get? key

/-- The properties for a developer. -/
def inspect (p : Properties) : String :=
  let text := fun (value : Option String) => Text.optional (value.map Text.quoted)
  let entries := p.headers.entries.map fun (key, value) =>
    Text.quoted key ++ ": " ++ Text.quoted value
  Text.record "BasicProperties"
    [("content_type", text p.contentType), ("content_encoding", text p.contentEncoding),
      ("headers", "\x7b" ++ ", ".intercalate entries ++ "\x7d"),
      ("delivery_mode", Text.optional (p.deliveryMode.map toString)),
      ("priority", Text.optional (p.priority.map toString)),
      ("correlation_id", text p.correlationId), ("reply_to", text p.replyTo),
      ("expiration", text p.expiration), ("message_id", text p.messageId),
      ("timestamp", Text.optional (p.timestamp.map toString)), ("kind", text p.kind),
      ("user_id", text p.userId), ("app_id", text p.appId)]

/-! ## JSON form -/

/-- The names of the fields in JSON, in order. -/
def fieldNames : List String :=
  ["contentType", "contentEncoding", "headers", "deliveryMode", "priority", "correlationId",
    "replyTo", "expiration", "messageId", "timestamp", "type", "userId", "appId"]

/-- A number, or null. -/
def numberJson {α : Type} (toNat : α → Nat) : Option α → Json
  | none => .null
  | some n => .int (toNat n)

def headersJson (headers : Headers) : Json :=
  .obj (headers.entries.map fun (key, value) => (key, .str value))

/-- The values of the fields, in order. -/
def fieldValues (p : Properties) : List Json :=
  [.ofText? p.contentType, .ofText? p.contentEncoding, headersJson p.headers,
    numberJson UInt8.toNat p.deliveryMode, numberJson UInt8.toNat p.priority,
    .ofText? p.correlationId, .ofText? p.replyTo, .ofText? p.expiration, .ofText? p.messageId,
    numberJson UInt64.toNat p.timestamp, .ofText? p.kind, .ofText? p.userId, .ofText? p.appId]

def toJson (p : Properties) : Json := .obj (fieldNames.zip p.fieldValues)

/-- Reads headers: an object whose members are all text. -/
def headers? : Json → Option Headers
  | .obj members => do
    let entries ← members.mapM fun (key, value) => (value.text?).map fun text => (key, text)
    pure (.ofList entries)
  | _ => none

def word8? (j : Json) : Option UInt8 := (j.nat? UInt8.size).map UInt8.ofNat

def word64? (j : Json) : Option UInt64 := (j.nat? UInt64.size).map UInt64.ofNat

/-- Reads the JSON form. -/
def ofJson? (j : Json) : Option Properties := do
  let given ← j.fields? fieldNames
  pure
    { contentType := ← Json.nullable Json.text? (given "contentType")
      contentEncoding := ← Json.nullable Json.text? (given "contentEncoding")
      headers := ← Json.orElse .empty headers? (given "headers")
      deliveryMode := ← Json.nullable word8? (given "deliveryMode")
      priority := ← Json.nullable word8? (given "priority")
      correlationId := ← Json.nullable Json.text? (given "correlationId")
      replyTo := ← Json.nullable Json.text? (given "replyTo")
      expiration := ← Json.nullable Json.text? (given "expiration")
      messageId := ← Json.nullable Json.text? (given "messageId")
      timestamp := ← Json.nullable word64? (given "timestamp")
      kind := ← Json.nullable Json.text? (given "type")
      userId := ← Json.nullable Json.text? (given "userId")
      appId := ← Json.nullable Json.text? (given "appId") }

end Properties

end MessageIntake
