import MessageIntake.Crew
import MessageIntake.Queue.Calls
import MessageIntake.Script
import MessageIntake.Session.Ending

/-!
# Sessions on one queue

A session makes calls on one queue, on its own sequence or on threads on
the side, and reports the reply of each and what the queue then looks
like, unless a thread is outstanding.
-/

namespace MessageIntake.Session.OnQueue

variable {α : Type}

/-- A step of a session. -/
inductive Command (α : Type) where
  | enqueue (item : α)
  | dequeue
  | tryDequeue
  | dequeueNoWait (default : α)
  | dequeueTimeout (timeout : Timeout)
  | wait (timeout : Timeout)
  | close
  | inspect
  /-- Takes items by a new iterator, at most `max` of them. -/
  | iterate (max : Option Nat)
  /-- Starts a thread for a step. -/
  | spawn (name : String) (step : Command α)
  /-- Waits for threads; `merge` asks for their items as one. -/
  | join (names : List String) (merge : Bool)
  /-- Nothing that a queue can do. -/
  | unknown

instance : Inhabited (Command α) := ⟨.unknown⟩

inductive Reply (α : Type) where
  | ok
  | failed (e : Error)
  | item (a : α)
  | none
  | ready (available : Bool)
  | closedNow (first : Bool)
  | text (shown : String)
  | items (taken : List α) (ending : Ending)
  | spawned
  | joined (merge : Bool) (replies : List (Reply α))
  | wouldBlock
  | badRequest

/-- The queue, and the threads on the side. -/
structure State (α : Type) where
  queue : Queue α := .empty
  crew : Crew (Command α) (Reply α) := {}

/-- What the queue looks like. -/
structure View where
  length : Nat
  isOpen : Bool
  deriving DecidableEq, Repr

/-- What a step asks: a call, a whole step, a further item of an
iteration, to note that a thread has ended, or to wait for threads. -/
inductive Request (α : Type) where
  | call (c : Queue.Call α)
  | perform (spawned : Bool) (c : Command α)
  | iterate (spawned : Bool) (left : Option Nat) (it : Queue.Iterator) (taken : List α)
  | ended (thread : Nat) (reply : Reply α)
  | await (threads : List Nat)

@[reducible] def Request.Answer : Request α → Type
  | .call c => c.Answer
  | .perform _ _ => Reply α
  | .iterate _ _ _ _ => Reply α
  | .ended _ _ => Unit
  | .await _ => List (Reply α)

def interface (α : Type) : Interface := ⟨Request α, Request.Answer⟩

abbrev Action (α β : Type) := Program (interface α) β

def call (c : Queue.Call α) : Action α c.Answer := Program.request (I := interface α) (.call c)

/-- Whether a call that may wait for `timeout` would wait too long. -/
def wouldBlock (spawned : Bool) (q : Queue α) (timeout : Timeout) : Bool :=
  !spawned && q.isOpen && q.items.isEmpty && timeout.exceeds patience

/-- The reply to a dequeue. -/
def taken : Result α → Reply α
  | .ok a => .item a
  | .error e => .failed e

/-- The reply to a dequeue that may find nothing. -/
def taken? : Result (Option α) → Reply α
  | .ok (some a) => .item a
  | .ok none => .none
  | .error e => .failed e

/-- `program`, unless it would wait too long. -/
def guarded (spawned : Bool) (q : Queue α) (timeout : Timeout) (program : Action α (Reply α)) :
    Action α (Reply α) :=
  if wouldBlock spawned q timeout then .done .wouldBlock else program

/-- The first state and the program of a step. -/
def begin (spawned : Bool) (s : State α) : Command α → State α × Action α (Reply α)
  | .enqueue item => (s, do
    match ← call (.enqueue item) with
    | .ok _ => return .ok
    | .error e => return .failed e)
  | .dequeue => (s, guarded spawned s.queue .infinite do return taken (← call .dequeue))
  | .tryDequeue => (s, do return taken? (← call .tryDequeue))
  | .dequeueNoWait default => (s, do return taken (← call (.dequeueNoWait default)))
  | .dequeueTimeout timeout =>
    (s, guarded spawned s.queue timeout do return taken? (← call (.dequeueTimeout timeout)))
  | .wait timeout =>
    (s, guarded spawned s.queue timeout do return .ready (← call (.waitForMessage timeout)))
  | .close => (s, do return .closedNow (← call .close))
  | .inspect => (s, .done (.text s.queue.inspect))
  | .iterate max => (s, Program.request (I := interface α) (.iterate spawned max {} []))
  | .spawn name step => ({ s with crew := s.crew.start name step }, .done .spawned)
  | .join names merge =>
    let (threads, crew) := s.crew.callIn names
    ({ s with crew }, match threads with
    | none => .done .badRequest
    | some threads => do
      return .joined merge (← Program.request (I := interface α) (.await threads)))
  | .unknown => (s, .done .badRequest)

/-- The next step of an iterator. -/
def next (it : Queue.Iterator) : Action α (Queue.Iterator × Option α) :=
  it.next.substitute call

/-- Goes on with an iteration that has taken `got`, the last first. -/
def iterate (spawned : Bool) (q : Queue α) (left : Option Nat) (it : Queue.Iterator)
    (got : List α) : Action α (Reply α) :=
  if left = some 0 then .done (.items got.reverse .full)
  else if wouldBlock spawned q .infinite then .done (.items got.reverse .wouldBlock)
  else do
    let (it, item) ← next it
    match item with
    | some a =>
      Program.request (I := interface α) (.iterate spawned (left.map (· - 1)) it (a :: got))
    | none =>
      let (_, item) ← next (α := α) it
      return .items got.reverse (.ended item.isSome)

/-- The condition that callers of the queue sleep on. -/
def queueCondition : Condition := 0

/-- The condition that those who wait for threads sleep on. -/
def crewCondition : Condition := 1

instance : Server (interface α) (State α) where
  serve visit s
    | .call c => (s.queue.pass visit c).served queueCondition fun queue => { s with queue }
    | .perform spawned c =>
      let (s, program) := begin spawned s c
      .runs s program
    | .iterate spawned left it got => .runs s (iterate spawned s.queue left it got)
    | .ended thread reply =>
      .answers { s with crew := s.crew.finish thread reply } (.all crewCondition) ()
    | .await threads =>
      match s.crew.results? threads with
      | some replies => .answers s .nobody replies
      | none => .sleeps s crewCondition none

/-- The program of a thread on the side. -/
def side (thread : Nat) (c : Command α) : Action α (Reply α) := do
  let reply ← Program.request (I := interface α) (.perform true c)
  let _ ← Program.request (I := interface α) (.ended thread reply)
  return reply

/-- What is seen of the queue. -/
def State.view? (s : State α) : Option View :=
  if s.crew.isIn then some ⟨s.queue.length, s.queue.isOpen⟩ else none

/-- How a session on a queue runs. -/
def conduct : Conduct (interface α) (State α) (Command α) (Reply α) (Option View) where
  program c := Program.request (I := interface α) (.perform false c)
  recruit s := s.crew.next?.map fun (thread, c, crew) => (side thread c, { s with crew })
  observe _ s := (s.view?, s)

/-- The replies to `steps` on a new queue, each with what the queue then
looks like unless a thread is outstanding. -/
def run (fuel : Nat) (steps : List (Command α)) : List (Option (Reply α) × Option View) :=
  conduct.run fuel {} steps

end MessageIntake.Session.OnQueue
