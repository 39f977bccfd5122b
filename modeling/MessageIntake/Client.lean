import MessageIntake.Delivery.Basic
import MessageIntake.Level
import MessageIntake.Lifecycle
import MessageIntake.Queue.Basic
import MessageIntake.Store
import MessageIntake.Transaction

/-!
# What a client's threads share, and what they ask of the outside

The shared state is a store of each kind of object that has a lock of
its own. A request is a section under one of these locks, which the
shared state serves by itself, a call to the outside, which is a channel
or the log, or a notice to a participant of a transaction. What the
outside does with a call, what a participant does with a notice, and
which other requests that brings about, is not fixed here.
-/

namespace MessageIntake

/-- Names a queue of deliveries. -/
abbrev QueueId := Nat

/-- Names the lifecycle of a consumer. -/
abbrev LifecycleId := Nat

namespace Client

/-- The objects that threads share. -/
structure World where
  queues : Store (Queue Delivery) := {}
  lifecycles : Store Lifecycle := {}
  transactions : Store Transaction := {}
  /-- Whether the enlistment of a flag has settled its delivery. -/
  settled : Store Bool := {}
  /-- The flag of the next enlistment. -/
  nextFlag : EnlistmentId := 0

instance : Inhabited World := ⟨{}⟩

/-- A step under one lock. -/
inductive Section where
  | queue (id : QueueId) (call : Queue.Call Delivery)
  | lifecycle (id : LifecycleId) (part : Lifecycle.Section)
  | transaction (id : TransactionId) (part : Transaction.Section)
  /-- Makes an enlistment flag that is not set. -/
  | newFlag
  /-- Sets an enlistment flag, and says whether it was not set before. -/
  | settle (id : EnlistmentId)

@[reducible] def Section.Answer : Section → Type
  | .queue _ call => call.Answer
  | .lifecycle _ part => part.Answer
  | .transaction _ part => part.Answer
  | .newFlag => EnlistmentId
  | .settle _ => Bool

/-- A call to the outside. -/
inductive Outside where
  | channel (id : ChannelId) (call : Channel.Call)
  | log (level : Level) (text : String)

@[reducible] def Outside.Answer : Outside → Type
  | .channel _ _ => Result Unit
  | .log _ _ => Unit

inductive Request where
  | under (lock : Section)
  | outside (call : Outside)
  /-- Tells a participant of a transaction. -/
  | notify (participant : Participant) (notice : Notice)

@[reducible] def Request.Answer : Request → Type
  | .under lock => lock.Answer
  | .outside call => call.Answer
  | .notify _ _ => Result Unit

/-- What the programs of a client may ask. -/
@[reducible] def interface : Interface := ⟨Request, Request.Answer⟩

/-- Serves a section; `store` puts the shared state back into the state
that it is a part of. -/
def World.serve {I : Interface} {σ : Type} (visit : Visit) (store : World → σ) (w : World) :
    (lock : Section) → Served I σ lock.Answer
  | .queue id call =>
    ((w.queues.get id).pass visit call).served id fun q =>
      store { w with queues := w.queues.set id q }
  | .lifecycle id part =>
    let (l, answer) := (w.lifecycles.get id).run part
    .answers (store { w with lifecycles := w.lifecycles.set id l }) .nobody answer
  | .transaction id part =>
    let (t, answer) := (w.transactions.get id).run part
    .answers (store { w with transactions := w.transactions.set id t }) .nobody answer
  | .newFlag =>
    .answers (store { w with settled := w.settled.set w.nextFlag false, nextFlag := w.nextFlag + 1 })
      .nobody w.nextFlag
  | .settle id =>
    .answers (store { w with settled := w.settled.set id true }) .nobody (!w.settled.get id)

/-! ## Actions -/

/-- A program of the client. -/
abbrev Action (α : Type) := Program interface α

namespace Action

variable {α β : Type}

/-- Goes on with `next` after success, and ends with the error else. -/
def andThen (action : Action (Result α)) (next : α → Action (Result β)) : Action (Result β) := do
  match ← action with
  | .ok a => next a
  | .error e => return .error e

end Action

def under (lock : Section) : Action lock.Answer := Program.request (I := interface) (.under lock)

def queue (id : QueueId) (call : Queue.Call Delivery) : Action call.Answer :=
  under (.queue id call)

def lifecycle (id : LifecycleId) (part : Lifecycle.Section) : Action part.Answer :=
  under (.lifecycle id part)

def transaction (id : TransactionId) (part : Transaction.Section) : Action part.Answer :=
  under (.transaction id part)

def channel (id : ChannelId) (call : Channel.Call) : Action (Result Unit) :=
  Program.request (I := interface) (.outside (.channel id call))

def log (level : Level) (text : String) : Action Unit :=
  Program.request (I := interface) (.outside (.log level text))

def notify (participant : Participant) (notice : Notice) : Action (Result Unit) :=
  Program.request (I := interface) (.notify participant notice)

end Client

end MessageIntake
