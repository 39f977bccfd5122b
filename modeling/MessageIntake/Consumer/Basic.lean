import MessageIntake.AckMode
import MessageIntake.Client

/-!
# Consumers

A consumer buffers the deliveries that the broker pushes, hands them to
readers, and settles each by its mode as it is handed over. Its queue
may be shared with other consumers. Cancellation, for whatever reason,
closes the queue once; what is buffered can still be read.

The broker's side is `consumeOk`, `deliver`, `cancelByBroker`,
`cancelConfirmed` and `shutdown`; the application's side is the family
of `dequeue`, `waitForMessage` and `cancel`.
-/

namespace MessageIntake

open Client

/-- A consumer: its lifecycle, the channel that it settles on, the queue
that it buffers in, and its mode. -/
structure Consumer where
  lifecycle : LifecycleId
  channel : ChannelId
  queue : QueueId
  mode : AckMode
  deriving DecidableEq, Repr, Inhabited

/-- The callbacks through which the protocol layer drives a consumer. -/
structure BasicConsumer where
  consumeOk : String → Action (Result Unit)
  deliver : Delivery → Action (Result Unit)
  cancelByBroker : String → Action Unit
  cancelConfirmed : String → Action Unit
  shutdown : ShutdownReason → Action Unit

namespace Consumer

/-- The tag under which the broker has started the consumer. -/
def consumerTag (c : Consumer) : Action (Option String) := do
  let l : Lifecycle ← Client.lifecycle c.lifecycle .look
  return l.consumerTag

/-- Why the transport went away, if it has. -/
def shutdownReason (c : Consumer) : Action (Option ShutdownReason) := do
  let l : Lifecycle ← Client.lifecycle c.lifecycle .look
  return l.shutdownReason

/-! ## What the broker reports -/

/-- The broker has started the consumer under `tag`. -/
def consumeOk (c : Consumer) (tag : String) : Action (Result Unit) :=
  (Client.lifecycle c.lifecycle (.start tag)).andThen fun _ => do
    log .info s!"consumer {tag} started, ack mode {c.mode.text}"
    return .ok ()

/-- The broker pushes a delivery. -/
def deliver (c : Consumer) (d : Delivery) : Action (Result Unit) := do
  log .debug s!"buffering delivery {d.tag} for consumer {d.consumerTag}"
  match ← Client.queue c.queue (.enqueue d) with
  | .ok _ => return .ok ()
  | .error e =>
    log .warn s!"delivery {d.tag} arrived after the consumer queue was closed"
    return .error e

/-- Ends the consumer: the first call closes the queue. -/
def onCancel (c : Consumer) : Action Unit := do
  -- The state is final before the queue closes; another call may find it so in between.
  let (previous, tag) ← Client.lifecycle c.lifecycle .cancel
  if previous = ConsumerState.canceled then return ()
  else
    let _ ← Client.queue c.queue .close
    let (left, _) ← Client.queue c.queue .look
    let shown := Text.optional (tag.map Text.quoted)
    log .info
      s!"consumer {shown} canceled from state {previous.text}, {left} delivery(ies) left to drain"

/-- The broker has canceled the consumer. -/
def cancelByBroker (c : Consumer) (tag : String) : Action Unit := do
  log .info s!"consumer {tag} canceled by broker"
  c.onCancel

/-- The broker confirms a cancellation. -/
def cancelConfirmed (c : Consumer) (tag : String) : Action Unit := do
  log .debug s!"cancel of consumer {tag} confirmed"
  c.onCancel

/-- The transport went away. -/
def shutdown (c : Consumer) (reason : ShutdownReason) : Action Unit := do
  if ← Client.lifecycle c.lifecycle (.loseTransport reason) then
    if reason.isClean then log .info s!"consumer transport closed: {reason.message}"
    else log .warn s!"consumer transport lost: {reason.message}"
    c.onCancel
  else return ()

/-- The consumer as the protocol layer knows it. -/
def basicConsumer (c : Consumer) : BasicConsumer :=
  ⟨c.consumeOk, c.deliver, c.cancelByBroker, c.cancelConfirmed, c.shutdown⟩

/-! ## What the application asks -/

/-- Unsubscribes. The broker is asked only by the first call on an active
consumer; the queue is closed even if the broker refuses. -/
def cancel (c : Consumer) : Action (Result Unit) := do
  let answer ← match ← Client.lifecycle c.lifecycle .requestCancel with
    | some tag => Client.channel c.channel (.cancel tag)
    | none => pure (.ok ())
  c.onCancel
  return answer

/-- What the mode does to a delivery that has left the queue. -/
def onDequeued (c : Consumer) (d : Delivery) : Action (Result Unit) :=
  match c.mode with
  | .auto => do
    log .debug s!"auto-acknowledging delivery {d.tag}"
    Client.channel c.channel (.acknowledge d.tag)
  | .manual | .transactional => return .ok ()

/-- Settles the delivery that was taken, if one was. -/
def settleDequeued (c : Consumer) : Option Delivery → Action (Result (Option Delivery))
  | some d => (c.onDequeued d).andThen fun _ => return .ok (some d)
  | none => return .ok none

/-- Takes the next delivery, waiting for one. -/
def dequeue (c : Consumer) : Action (Result Delivery) :=
  Action.andThen (Client.queue c.queue .dequeue) fun d =>
    (c.onDequeued d).andThen fun _ => return .ok d

/-- Takes the next delivery, waiting no longer than the timeout. -/
def dequeueTimeout (c : Consumer) (timeout : Timeout) : Action (Result (Option Delivery)) :=
  Action.andThen (Client.queue c.queue (.dequeueTimeout timeout)) c.settleDequeued

/-- Takes the next delivery, if there is one. -/
def dequeueNoWait (c : Consumer) : Action (Result (Option Delivery)) :=
  Action.andThen (Client.queue c.queue .tryDequeue) c.settleDequeued

/-- Waits until a delivery is buffered, which stays. -/
def waitForMessage (c : Consumer) (timeout : Timeout) : Action Bool :=
  Client.queue c.queue (.waitForMessage timeout)

/-- What a dequeue means to an iteration over deliveries: a delivery, an
error that does not end the iteration, or its end. -/
def taken (it : Queue.Iterator) : Result Delivery → Queue.Iterator × Option (Result Delivery)
  | .ok d => (it, some (.ok d))
  | .error .queueClosed => (⟨true⟩, none)
  | .error e => (it, some (.error e))

/-- The next step of an iteration over deliveries. -/
def nextDelivery (c : Consumer) (it : Queue.Iterator) :
    Action (Queue.Iterator × Option (Result Delivery)) := do
  if it.finished then return (it, none)
  else return taken it (← c.dequeue)

/-- The consumer for a developer, by its lifecycle and its queue. -/
def inspect (c : Consumer) (l : Lifecycle) (q : Queue Delivery) : String :=
  Text.record "DeliveryConsumer"
    [("ack_mode", c.mode.inspect), ("state", l.state.inspect),
      ("consumer_tag", Text.optional (l.consumerTag.map Text.quoted)), ("queue", q.inspect)]

end Consumer

end MessageIntake
