import MessageIntake.Consumer.Subscriber
import MessageIntake.Handler
import MessageIntake.Session.Ending

/-!
# What a session does and says

A session makes objects, gives them names, and uses them by name. Its
commands are the operations of the library; its replies are their
results. Events are what the objects do to the outside meanwhile.
-/

namespace MessageIntake.Session

/-- What a consumer is made as. A subscriber's mode is in its
configuration. -/
inductive ConsumerKind where
  | auto
  | manual
  | transactional
  | subscriber
  deriving DecidableEq, Repr

/-- The queue that a consumer is made over. -/
inductive QueueSource where
  | own
  | named (queue : String)
  | ofConsumer (consumer : String)
  deriving DecidableEq, Repr

/-- A queue by its name, or that of a consumer. -/
inductive QueueTarget where
  | named (queue : String)
  | ofConsumer (consumer : String)
  deriving DecidableEq, Repr

/-- How to take a delivery. -/
inductive Take where
  | wait
  | within (timeout : Timeout)
  | noWait
  deriving DecidableEq, Repr

/-- What a participant does when it is told. -/
structure ParticipantScript where
  name : String := ""
  transaction : TransactionId := 0
  /-- Its failures, by phase. -/
  prepare : Option Error := none
  commit : Option Error := none
  rollback : Option Error := none
  /-- Whether it tries to use its transaction when told. -/
  probes : Bool := false
  /-- Whether it only knows of commit and rollback. -/
  plain : Bool := false
  deriving Inhabited

/-- The delivery that a handler runs on: one that is given, or the one
that is saved under a name, with another for a name that has none. -/
inductive Source where
  | given (d : Delivery)
  | saved (name : String) (otherwise : Delivery)

/-- What a handler answers: a verdict with a value, or whether the body
is text. -/
inductive Verdict where
  | ok (value : Json)
  | err (value : Json)
  | utf8

/-- A step of a session. -/
inductive Command where
  | newChannel (channel : String)
  /-- Answers the calls of a kind on deliveries of `tags`, or on all. -/
  | answerRule (channel : String) (kind : Channel.Kind) (tags : Option (List UInt64))
      (outcome : Channel.Call → Option Error)
  /-- Does `steps` inside the calls of a kind, each with its label. -/
  | hookRule (channel : String) (kind : Channel.Kind) (tags : Option (List UInt64))
      (steps : List (String × Command))
  | clearRules (channel : String)
  | newQueue (queue : String)
  | queueEnqueue (target : QueueTarget) (d : Delivery)
  | queueTake (target : QueueTarget) (wait : Bool)
  | queueClose (target : QueueTarget)
  | queueInspect (target : QueueTarget)
  | newConsumer (consumer : String) (kind : ConsumerKind) (channel : String) (queue : QueueSource)
      (config : Config)
  | consumeOk (consumer tag : String)
  | deliver (consumer : String) (d : Delivery)
  | cancelByBroker (consumer tag : String)
  | cancelConfirmed (consumer tag : String)
  | shutdown (consumer : String) (reason : ShutdownReason)
  | cancel (consumer : String)
  | channelCall (consumer : String) (call : Channel.Call)
  | inspectConsumer (consumer : String)
  | wait (consumer : String) (timeout : Timeout)
  | dequeue (consumer : String) (how : Take) (transaction save : Option String)
  | receive (consumer : String) (transaction save : Option String)
  | deliveries (consumer : String) (max : Option Nat)
  | newTransaction (transaction : String)
  | enlist (transaction : String) (participant : ParticipantScript)
  | enlistDelivery (transaction enlistment : String)
  | commit (transaction : String)
  | rollback (transaction : String)
  | markInDoubt (transaction : String)
  | inspectTransaction (transaction : String)
  | dropTransaction (transaction : String)
  | newEnlistment (enlistment channel : String) (tag : UInt64)
  | tell (enlistment : String) (notice : Notice)
  | newHandler (handler channel : String) (make : ChannelId → AcknowledgeHandler)
  | invoke (handler : String) (source : Source) (verdict : Verdict)
  /-- Starts a thread for a step. -/
  | spawn (name : String) (step : Command)
  /-- Waits for threads; `merge` asks for their items as one. -/
  | join (names : List String) (merge : Bool)
  /-- A step whose arguments cannot be read. -/
  | unreadable
  /-- No step of a session. -/
  | unknown

instance : Inhabited Command := ⟨.unknown⟩

/-- The objects that a step names. -/
structure Subjects where
  consumer : Option String := none
  queue : Option String := none
  transaction : Option String := none
  deriving DecidableEq, Repr, Inhabited

/-- A command with the label that it is reported under and the objects
that it names. -/
structure Step where
  label : String
  command : Command
  subjects : Subjects := {}

/-- A consumer as a reply shows it. -/
structure ConsumerView where
  lifecycle : Lifecycle
  mode : AckMode
  receiveTimeout : Option Timeout
  inspected : String

inductive Reply where
  | ok
  | failed (e : Error)
  | badRequest
  | unreadable
  | wouldBlock
  | closedNow (first : Bool)
  | ready (available : Bool)
  | delivery (d : Delivery)
  | none
  | timedOut
  | closed (faulted : Bool)
  | text (shown : String)
  | items (taken : List (Result UInt64)) (ending : Ending)
  | consumer (view : ConsumerView)
  | transaction (status : TransactionStatus) (ensure : Result Unit)
  | told (answer : Result Unit) (tag : UInt64) (before after : Bool)
  | handler (h : AcknowledgeHandler)
  | handled (verdict : Except Json Json)
  | spawned
  | joined (merge : Bool) (replies : List Reply)

/-- The reply to an operation without a value. -/
def Reply.ofUnit : Result Unit → Reply
  | .ok _ => .ok
  | .error e => .failed e

/-- The reply to an operation that cannot fail. -/
def Reply.ofDone (_ : Unit) : Reply := .ok

/-- The reply to a dequeue. -/
def Reply.ofDelivery : Result Delivery → Reply
  | .ok d => .delivery d
  | .error e => .failed e

/-- The reply to a dequeue that may find nothing. -/
def Reply.ofDelivery? : Result (Option Delivery) → Reply
  | .ok (some d) => .delivery d
  | .ok Option.none => .none
  | .error e => .failed e

/-- The reply to a receive call. -/
def Reply.ofReceived : Result Received → Reply
  | .ok (.delivery d) => .delivery d
  | .ok .timedOut => .timedOut
  | .ok (.closed faulted) => .closed faulted
  | .error e => .failed e

/-- What a participant sees when it uses its transaction. -/
structure Sight where
  status : TransactionStatus
  active : Bool
  enlisted : Nat
  ensure : Result Unit
  commit : Result Unit
  rollback : Result Unit
  inDoubt : Result Unit
  enlist : Result Unit

/-- What a participant that uses its transaction reports. -/
inductive Probe where
  | gone
  | seen (sight : Sight)

inductive Event where
  | call (channel : String) (call : Channel.Call) (failure : Option Error)
  | hook (label : String) (reply : Reply)
  | participant (name : String) (notice : Notice) (probe : Option Probe)
  | handler (tag : UInt64)
  | log (level : Level) (text : String)

end MessageIntake.Session
