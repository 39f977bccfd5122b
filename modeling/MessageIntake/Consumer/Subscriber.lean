import MessageIntake.Config.Basic
import MessageIntake.Consumer.Transactional
import MessageIntake.Text.Span

/-!
# Subscribers

A subscriber is a consumer of the mode that its configuration names,
with one call to receive: it waits for the configured time and says what
came of it. That the queue is closed is an outcome here, not an error;
it is a fault if the transport went away with a code other than success.
Whatever else it is asked, it passes on to its consumer (`forward_eq`).
-/

namespace MessageIntake

open Client

/-- A consumer with the time that a receive call waits. -/
structure Subscriber where
  consumer : Consumer
  receiveTimeout : Timeout
  deriving DecidableEq, Repr, Inhabited

/-- What came of a receive call. -/
inductive Received where
  | delivery (d : Delivery)
  | timedOut
  | closed (faulted : Bool)
  deriving DecidableEq

namespace Subscriber

variable {α : Type}

/-- The subscriber that a configuration asks for. -/
def ofConfig (lifecycle : LifecycleId) (channel : ChannelId) (queue : QueueId) (config : Config) :
    Subscriber :=
  ⟨⟨lifecycle, channel, queue, config.ackMode⟩, config.receiveTimeout⟩

/-! ## What is left to the consumer

A subscriber has a consumer of one of three kinds, and passes on to it
whatever it is asked. -/

/-- What the subscriber's consumer makes of a request, by its kind. -/
def forward (s : Subscriber) (plain : Consumer → α) (transactional : TransactionalConsumer → α) :
    α :=
  match h : s.consumer.mode with
  | .auto | .manual => plain s.consumer
  | .transactional => transactional ⟨s.consumer, h⟩

section Forward

variable {s : Subscriber} {plain : Consumer → α} {transactional : TransactionalConsumer → α}

/-- What holds of every kind's consumer holds of what is forwarded. -/
theorem forward_of {P : α → Prop}
    (hplain : s.consumer.mode ≠ .transactional → P (plain s.consumer))
    (htransactional : ∀ h, P (transactional ⟨s.consumer, h⟩)) :
    P (s.forward plain transactional) := by
  unfold forward
  split
  · rename_i hmode
    exact hplain (by simp [hmode])
  · rename_i hmode
    exact hplain (by simp [hmode])
  · exact htransactional _

/-- What all kinds do alike is done by the consumer. -/
theorem forward_eq (h : ∀ c, transactional c = plain c.inner) :
    s.forward plain transactional = plain s.consumer :=
  forward_of (P := (· = plain s.consumer)) (fun _ => rfl) fun _ => h _

theorem forward_eq_of_transactional (h : s.consumer.mode = .transactional) :
    s.forward plain transactional = transactional ⟨s.consumer, h⟩ :=
  forward_of (P := (· = transactional ⟨s.consumer, h⟩)) (fun hplain => absurd h hplain) fun _ => rfl

end Forward

def ackMode (s : Subscriber) : AckMode := s.forward (·.mode) (·.ackMode)

def channel (s : Subscriber) : ChannelId := s.forward (·.channel) (·.channel)

def queue (s : Subscriber) : QueueId := s.forward (·.queue) (·.queue)

def consumerTag (s : Subscriber) : Action (Option String) :=
  s.forward (·.consumerTag) (·.consumerTag)

def shutdownReason (s : Subscriber) : Action (Option ShutdownReason) :=
  s.forward (·.shutdownReason) (·.shutdownReason)

/-- The consumer to register with the protocol layer. -/
def basicConsumer (s : Subscriber) : BasicConsumer := s.forward (·.basicConsumer) (·.basicConsumer)

def waitForMessage (s : Subscriber) (timeout : Timeout) : Action Bool :=
  Client.queue s.queue (.waitForMessage timeout)

def cancel (s : Subscriber) : Action (Result Unit) := s.forward (·.cancel) (·.cancel)

@[simp] theorem ackMode_eq (s : Subscriber) : s.ackMode = s.consumer.mode :=
  forward_eq fun _ => rfl

@[simp] theorem channel_eq (s : Subscriber) : s.channel = s.consumer.channel :=
  forward_eq fun _ => rfl

@[simp] theorem queue_eq (s : Subscriber) : s.queue = s.consumer.queue :=
  forward_eq fun _ => rfl

@[simp] theorem consumerTag_eq (s : Subscriber) : s.consumerTag = s.consumer.consumerTag :=
  forward_eq fun _ => rfl

@[simp] theorem shutdownReason_eq (s : Subscriber) :
    s.shutdownReason = s.consumer.shutdownReason :=
  forward_eq fun _ => rfl

@[simp] theorem basicConsumer_eq (s : Subscriber) : s.basicConsumer = s.consumer.basicConsumer :=
  forward_eq fun _ => rfl

@[simp] theorem waitForMessage_eq (s : Subscriber) (timeout : Timeout) :
    s.waitForMessage timeout = s.consumer.waitForMessage timeout := by
  rw [waitForMessage, queue_eq, Consumer.waitForMessage]

@[simp] theorem cancel_eq (s : Subscriber) : s.cancel = s.consumer.cancel :=
  forward_eq fun _ => rfl

/-! ## How the subscription ended -/

/-- Whether the subscription ended with a fault. The log says how it ended, and
the tag in it is looked up by itself. -/
def endedByFault (s : Subscriber) : Action Bool := do
  match ← s.shutdownReason with
  | some reason =>
    if reason.isClean then withoutFault
    else
      log .warn s!"subscription ended by transport failure: {reason.message}"
      return true
  | none => withoutFault
where
  withoutFault : Action Bool := do
    let tag ← s.consumerTag
    log .info s!"subscription {Text.optional (tag.map Text.quoted)} ended"
    return false

/-- How the subscription ended, as a receive call reports it. -/
def closed (s : Subscriber) : Action Received := do return .closed (← s.endedByFault)

/-- To find out how the subscription ended takes looks at its lifecycle, and a
line in the log. -/
theorem endedByFault_asks {Allowed : Request → Prop} (s : Subscriber)
    (hlook : Allowed (.under (.lifecycle s.consumer.lifecycle .look)))
    (hlog : ∀ level text, Allowed (.outside (.log level text))) : s.endedByFault.Asks Allowed := by
  have hreason : s.shutdownReason.Asks Allowed := by
    rw [shutdownReason_eq]
    exact .ask hlook fun _ => .done _
  have htag : s.consumerTag.Asks Allowed := by
    rw [consumerTag_eq]
    exact .ask hlook fun _ => .done _
  have hquiet : (endedByFault.withoutFault s).Asks Allowed :=
    htag.bind fun _ => .ask (hlog _ _) fun _ => .done _
  refine hreason.bind fun reason? => ?_
  cases reason? with
  | none => exact hquiet
  | some reason =>
    dsimp only
    split
    · exact hquiet
    · exact .ask (hlog _ _) fun _ => .done _

/-! ## Receiving -/

/-- The delivery that the mode's dequeue takes. A transactional subscriber
needs a transaction, the others ignore it. -/
def dequeue (s : Subscriber) (t : Option TransactionId) : Action (Result (Option Delivery)) :=
  s.forward (·.dequeueTimeout s.receiveTimeout) fun c =>
    match t with
    | some t => c.dequeueTimeout s.receiveTimeout t
    | none => return .error (.transaction (.notActive "NONE"))

/-- Waits for the next delivery. -/
def receive (s : Subscriber) (t : Option TransactionId) : Action (Result Received) := do
  match ← s.dequeue t with
  | .ok (some d) => return .ok (.delivery d)
  | .ok none => return .ok .timedOut
  | .error .queueClosed => return .ok (← s.closed)
  | .error e => return .error e

/-- The subscriber for a developer, by its lifecycle. -/
def inspect (s : Subscriber) (l : Lifecycle) : String :=
  Text.record "Subscriber"
    [("ack_mode", s.ackMode.inspect), ("state", l.state.inspect),
      ("receive_timeout", s.receiveTimeout.inspect)]

end Subscriber

end MessageIntake
