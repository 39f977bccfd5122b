import MessageIntake.Consumer.Basic
import MessageIntake.Transaction.Completion

/-!
# Consuming under a transaction

A consumer whose deliveries are settled by the outcome of a transaction.
The transaction is asked before waiting, so an inactive one leaves the
queue alone; and it is asked again when the delivery is enlisted, so one
that completed in between has the delivery handed back to the broker.
-/

namespace MessageIntake

open Client

/-- A consumer in transactional mode. -/
structure TransactionalConsumer where
  inner : Consumer
  transactional : inner.mode = .transactional
  deriving DecidableEq, Repr

namespace TransactionalConsumer

instance : Inhabited TransactionalConsumer :=
  ⟨{ (default : Consumer) with mode := .transactional }, rfl⟩

/-! ## What is left to the consumer inside -/

def ackMode (c : TransactionalConsumer) : AckMode := c.inner.mode

def channel (c : TransactionalConsumer) : ChannelId := c.inner.channel

def queue (c : TransactionalConsumer) : QueueId := c.inner.queue

def consumerTag (c : TransactionalConsumer) : Action (Option String) := c.inner.consumerTag

def shutdownReason (c : TransactionalConsumer) : Action (Option ShutdownReason) :=
  c.inner.shutdownReason

def waitForMessage (c : TransactionalConsumer) (timeout : Timeout) : Action Bool :=
  c.inner.waitForMessage timeout

def cancel (c : TransactionalConsumer) : Action (Result Unit) := c.inner.cancel

/-- The consumer as the protocol layer knows it. -/
def basicConsumer (c : TransactionalConsumer) : BasicConsumer where
  consumeOk tag := c.inner.consumeOk tag
  deliver d := c.inner.deliver d
  cancelByBroker tag := c.inner.cancelByBroker tag
  cancelConfirmed tag := c.inner.cancelConfirmed tag
  shutdown reason := c.inner.shutdown reason

/-! ## What is done under a transaction -/

/-- Enlists a delivery that was taken, or hands it back. -/
def enlist (c : TransactionalConsumer) (t : TransactionId) (d : Delivery) :
    Action (Result Unit) := do
  let flag ← under .newFlag
  let enlistment : Enlistment := ⟨flag, d.tag, c.inner.channel⟩
  match ← transaction t (.enlist (.delivery enlistment)) with
  | .ok _ =>
    log .debug s!"delivery {d.tag} enlisted in transaction"
    return .ok ()
  | .error e =>
    -- The transaction completed after it was asked, while this call waited.
    log .warn s!"delivery {d.tag} could not be enlisted, requeueing: {e.message}"
    (Client.channel c.inner.channel (.reject d.tag true)).andThen fun _ => return .error e

/-- Enlists the delivery that was taken, if one was. -/
def enlistDequeued (c : TransactionalConsumer) (t : TransactionId) :
    Option Delivery → Action (Result (Option Delivery))
  | some d => (c.enlist t d).andThen fun _ => return .ok (some d)
  | none => return .ok none

/-- Goes on with `action` if the transaction is active. -/
def whenActive {α : Type} (t : TransactionId) (action : Action (Result α)) : Action (Result α) :=
  Action.andThen (transaction t .ensureActive) fun _ => action

/-- Takes the next delivery into the transaction, waiting for one. -/
def dequeue (c : TransactionalConsumer) (t : TransactionId) : Action (Result Delivery) :=
  whenActive t <| c.inner.dequeue.andThen fun d =>
    (c.enlist t d).andThen fun _ => return .ok d

/-- Takes the next delivery into the transaction, waiting no longer than
the timeout. -/
def dequeueTimeout (c : TransactionalConsumer) (timeout : Timeout) (t : TransactionId) :
    Action (Result (Option Delivery)) :=
  whenActive t <| (c.inner.dequeueTimeout timeout).andThen (c.enlistDequeued t)

/-- Takes the next delivery into the transaction, if there is one. -/
def dequeueNoWait (c : TransactionalConsumer) (t : TransactionId) :
    Action (Result (Option Delivery)) :=
  whenActive t <| c.inner.dequeueNoWait.andThen (c.enlistDequeued t)

/-- The consumer for a developer. -/
def inspect (c : TransactionalConsumer) (l : Lifecycle) (q : Queue Delivery) : String :=
  Text.record "TransactionalConsumer" [("inner", c.inner.inspect l q)]

end TransactionalConsumer

end MessageIntake
