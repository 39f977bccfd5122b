import MessageIntake.Crew
import MessageIntake.Session.Command

/-!
# The state of a session

The shared state of the client, the names of its objects, how channels
and participants behave, the threads on the side, and the events not yet
reported. A transaction is held by its name and by every step that uses
it; the one that lets it go last discards it.
-/

namespace MessageIntake.Session

open Client

/-- Objects by name. -/
structure Table (α : Type) where
  entries : List (String × α) := []

namespace Table

variable {α : Type}

instance : Inhabited (Table α) := ⟨{}⟩

def get? (t : Table α) (name : String) : Option α := t.entries.lookup name

def erase (t : Table α) (name : String) : Table α := ⟨t.entries.filter (·.1 != name)⟩

/-- Names an object; a name has one object at a time. -/
def insert (t : Table α) (name : String) (a : α) : Table α := ⟨(name, a) :: (t.erase name).entries⟩

@[simp] theorem get?_insert_self (t : Table α) (name : String) (a : α) :
    (t.insert name a).get? name = some a := by
  simp [insert, get?]

end Table

/-- A consumer of any kind. -/
inductive Holder where
  | plain (c : Consumer)
  | transactional (c : TransactionalConsumer)
  | subscriber (s : Subscriber)
  deriving DecidableEq, Repr

namespace Holder

def consumer : Holder → Consumer
  | plain c => c
  | transactional c => c.inner
  | subscriber s => s.consumer

/-- The consumer of a kind. -/
def make (kind : ConsumerKind) (lifecycle : LifecycleId) (channel : ChannelId) (queue : QueueId)
    (config : Config) : Holder :=
  match kind with
  | .auto => plain ⟨lifecycle, channel, queue, .auto⟩
  | .manual => plain ⟨lifecycle, channel, queue, .manual⟩
  | .transactional => transactional ⟨⟨lifecycle, channel, queue, .transactional⟩, rfl⟩
  | .subscriber => subscriber (.ofConfig lifecycle channel queue config)

/-- What is asked of a consumer, by its kind. -/
def forward {α : Type} (h : Holder) (asPlain : Consumer → α)
    (asTransactional : TransactionalConsumer → α) (asSubscriber : Subscriber → α) : α :=
  match h with
  | plain c => asPlain c
  | transactional c => asTransactional c
  | subscriber s => asSubscriber s

def ackMode (h : Holder) : AckMode := h.forward (·.mode) (·.ackMode) (·.ackMode)

def channel (h : Holder) : ChannelId := h.forward (·.channel) (·.channel) (·.channel)

def queue (h : Holder) : QueueId := h.forward (·.queue) (·.queue) (·.queue)

def basicConsumer (h : Holder) : BasicConsumer :=
  h.forward (·.basicConsumer) (·.basicConsumer) (·.basicConsumer)

def waitForMessage (h : Holder) (timeout : Timeout) : Action Bool :=
  h.forward (·.waitForMessage timeout) (·.waitForMessage timeout) (·.waitForMessage timeout)

def cancel (h : Holder) : Action (Result Unit) := h.forward (·.cancel) (·.cancel) (·.cancel)

/-- The consumer as a reply shows it. -/
def view (h : Holder) (l : Lifecycle) (q : Queue Delivery) : ConsumerView :=
  { lifecycle := l
    mode := h.ackMode
    receiveTimeout := match h with
      | subscriber s => some s.receiveTimeout
      | _ => none
    inspected := match h with
      | plain c => c.inspect l q
      | transactional c => c.inspect l q
      | subscriber s => s.inspect l }

end Holder

/-- What a channel does at the calls that a rule is about. -/
inductive Reaction where
  | answer (outcome : Channel.Call → Option Error)
  | hook (steps : List (String × Command))

/-- A reaction to the calls of one kind on deliveries of `tags`, or on
all. -/
structure Rule where
  kind : Channel.Kind
  tags : Option (List UInt64)
  reaction : Reaction

/-- Whether a rule is about a call. -/
def Rule.isAbout (r : Rule) (call : Channel.Call) : Bool :=
  r.kind = call.kind &&
    match r.tags with
    | none => true
    | some tags => tags.contains call.tag

/-- How a channel behaves: its name, its rules in the order added, and
whether its hooks are running. -/
structure Booth where
  name : String := ""
  rules : List Rule := []
  busy : Bool := false
  deriving Inhabited

namespace Booth

/-- The failure of a call: the last rule that answers it decides. -/
def failure (b : Booth) (call : Channel.Call) : Option Error :=
  let answers := b.rules.filterMap fun r => match r.reaction with
    | .answer outcome => if r.isAbout call then some (outcome call) else none
    | .hook _ => none
  answers.getLast?.getD none

/-- The steps that run inside a call, in the order added; none while the
channel's hooks are running. -/
def hooks (b : Booth) (call : Channel.Call) : List (String × Command) :=
  if b.busy then []
  else b.rules.flatMap fun r => match r.reaction with
    | .hook steps => if r.isAbout call then steps else []
    | .answer _ => []

end Booth

/-- The condition that those who wait for threads sleep on. -/
def crewCondition : Condition := 0

structure State where
  world : World := {}
  /-- The number of the next object. A queue's number is the condition that
  its callers sleep on. -/
  nextId : Nat := crewCondition + 1
  channels : Table ChannelId := {}
  queues : Table QueueId := {}
  consumers : Table Holder := {}
  transactions : Table TransactionId := {}
  enlistments : Table Enlistment := {}
  handlers : Table AcknowledgeHandler := {}
  saved : Table Delivery := {}
  booths : Store Booth := {}
  participants : Store ParticipantScript := {}
  /-- How often a transaction is held. -/
  holds : Store Nat := {}
  /-- The threads on the side. -/
  crew : Crew Command Reply := {}
  /-- Whether log records are events. -/
  logging : Bool := false
  /-- Events not yet reported, the last first. -/
  events : List Event := []

namespace State

/-- A number for a new object. -/
def fresh (s : State) : Nat × State := (s.nextId, { s with nextId := s.nextId + 1 })

def record (s : State) (e : Event) : State := { s with events := e :: s.events }

def hold (s : State) (t : TransactionId) : State := { s with holds := s.holds.modify t (· + 1) }

def letGo (s : State) (t : TransactionId) : State := { s with holds := s.holds.modify t (· - 1) }

def queueOf (s : State) (q : QueueId) : Queue Delivery := s.world.queues.get q

def lifecycleOf (s : State) (c : Consumer) : Lifecycle := s.world.lifecycles.get c.lifecycle

def transactionOf (s : State) (t : TransactionId) : Transaction := s.world.transactions.get t

/-- The queue that a target names. -/
def target? (s : State) : QueueTarget → Option QueueId
  | .named queue => s.queues.get? queue
  | .ofConsumer consumer => (s.consumers.get? consumer).map (·.queue)

end State

/-! ## What a report shows -/

structure QueueView where
  length : Nat
  isOpen : Bool
  deriving DecidableEq, Repr

/-- What is seen after a step: the events since the last report, and the
objects that the step names. -/
structure Report where
  events : List Event
  consumer : Option ConsumerState
  queue : Option QueueView
  transaction : Option (TransactionStatus × Nat)

/-- The report on `subjects`. The queue is the one named, or else that of
the consumer named. -/
def State.report (s : State) (subjects : Subjects) : Report :=
  let holder := subjects.consumer.bind s.consumers.get?
  let queue := (subjects.queue.bind s.queues.get?).or (holder.map (·.queue))
  let transaction := (subjects.transaction.bind s.transactions.get?).map s.transactionOf
  { events := s.events.reverse
    consumer := holder.map fun h => (s.lifecycleOf h.consumer).state
    queue := queue.map fun q => ⟨(s.queueOf q).length, (s.queueOf q).isOpen⟩
    transaction := transaction.map fun t => (t.status, t.participants.length) }

end MessageIntake.Session
