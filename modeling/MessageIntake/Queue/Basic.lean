import MessageIntake.Error
import MessageIntake.Machine

/-!
# Closable first-in-first-out queues

A queue holds items in the order they came and is open until it is
closed, once and for all. A call on it is a sequence of passes through
its lock: `Queue.pass` is one pass, which either returns the call's
answer or leaves the caller asleep until the queue changes or a deadline
comes; a caller that was woken passes again.

An item wakes one sleeper, closing wakes all. A caller that waited only
to see an item hands its wakeup on, because the item is still there.
-/

namespace MessageIntake

/-- Items in the order they came, and whether more may come. -/
structure Queue (α : Type) where
  items : List α
  isOpen : Bool
  deriving DecidableEq, Repr

namespace Queue

variable {α : Type}

/-- A new queue: open, without items. -/
def empty : Queue α := ⟨[], true⟩

instance : Inhabited (Queue α) := ⟨empty⟩

def length (q : Queue α) : Nat := q.items.length

/-- The queue for a developer. -/
def inspect (q : Queue α) : String :=
  Text.record "ClosableBlockingQueue" [("len", toString q.length), ("open", Text.truth q.isOpen)]

/-- What can be asked of a queue. -/
inductive Call (α : Type) where
  /-- Adds an item at the end. -/
  | enqueue (item : α)
  /-- Takes the first item, waiting for one. -/
  | dequeue
  /-- Takes the first item, if there is one. -/
  | tryDequeue
  /-- Takes the first item, or the one given if there is none. -/
  | dequeueNoWait (default : α)
  /-- Takes the first item, waiting no longer than the timeout. -/
  | dequeueTimeout (timeout : Timeout)
  /-- Waits until there is an item, which stays. -/
  | waitForMessage (timeout : Timeout)
  | close
  /-- Looks at the queue. -/
  | look
  deriving DecidableEq, Repr

/-- The answer to a call. Closing says whether it was this call that
closed the queue; a look gives the length and whether the queue is
open. -/
@[reducible] def Call.Answer : Call α → Type
  | .enqueue _ => Result Unit
  | .dequeue => Result α
  | .tryDequeue => Result (Option α)
  | .dequeueNoWait _ => Result α
  | .dequeueTimeout _ => Result (Option α)
  | .waitForMessage _ => Bool
  | .close => Bool
  | .look => Nat × Bool

/-- Whom a pass wakes among the sleepers of its queue. -/
inductive Wakes where
  | nobody
  | one
  | all
  deriving DecidableEq, Repr

/-- The signal to the sleepers on a condition. -/
def Wakes.signal (condition : Condition) : Wakes → Signal
  | nobody => .nobody
  | one => .one condition
  | all => .all condition

/-- How a pass through the lock ends. -/
inductive Turn (β : Type) where
  | returns (answer : β)
  | sleeps (deadline : Option Instant)
  deriving DecidableEq, Repr

/-- The queue after a pass, whom it wakes, and how it ends. -/
structure Pass (α β : Type) where
  queue : Queue α
  wakes : Wakes
  turn : Turn β
  deriving DecidableEq, Repr

/-- Whether the time of a call is up. -/
def timeUp (deadline : Option Instant) (now : Instant) : Bool :=
  match deadline with
  | none => false
  | some d => d ≤ now

/-- Takes the first item; `onEmpty` says what to do on an open queue
without one. -/
def take (q : Queue α) (found : α → β) (onEmpty : Turn (Result β)) : Pass α (Result β) :=
  match q.items with
  | item :: rest => ⟨{ q with items := rest }, .nobody, .returns (.ok (found item))⟩
  | [] => ⟨q, .nobody, if q.isOpen then onEmpty else .returns (.error .queueClosed)⟩

/-- One pass of a call through the lock. -/
def pass (visit : Visit) (q : Queue α) : (c : Call α) → Pass α c.Answer
  | .enqueue item =>
    if q.isOpen then ⟨{ q with items := q.items ++ [item] }, .one, .returns (.ok ())⟩
    else ⟨q, .nobody, .returns (.error .queueClosed)⟩
  | .dequeue => q.take id (.sleeps none)
  | .tryDequeue => q.take some (.returns (.ok none))
  | .dequeueNoWait default => q.take id (.returns (.ok default))
  | .dequeueTimeout timeout =>
    let deadline := timeout.deadline visit.started
    q.take some (if timeUp deadline visit.now then .returns (.ok none) else .sleeps deadline)
  | .waitForMessage timeout =>
    let deadline := timeout.deadline visit.started
    match q.items with
    -- A wakeup that ended a sleep was meant for whoever takes the item.
    | _ :: _ => ⟨q, if visit.waited then .one else .nobody, .returns true⟩
    | [] =>
      if q.isOpen && !timeUp deadline visit.now then ⟨q, .nobody, .sleeps deadline⟩
      else ⟨q, .nobody, .returns false⟩
  | .close =>
    if q.isOpen then ⟨{ q with isOpen := false }, .all, .returns true⟩
    else ⟨q, .nobody, .returns false⟩
  | .look => ⟨q, .nobody, .returns (q.length, q.isOpen)⟩

/-- A pass as the machine sees it: the queue's sleepers are those of
`condition`, and `store` puts the queue back. -/
def Pass.served {I : Interface} {σ β : Type} (p : Pass α β) (condition : Condition)
    (store : Queue α → σ) : Served I σ β :=
  match p.turn with
  | .sleeps deadline => .sleeps (store p.queue) condition deadline
  | .returns answer => .answers (store p.queue) (p.wakes.signal condition) answer

/-! ## Iteration -/

/-- An iterator over a queue ends for good when the queue first says
that it is closed. -/
structure Iterator where
  finished : Bool := false
  deriving DecidableEq, Repr

/-- What a dequeue means to an iterator: an item, or the end. -/
def Iterator.take (it : Iterator) : Result α → Iterator × Option α
  | .ok item => (it, some item)
  | .error _ => (⟨true⟩, none)

end Queue

end MessageIntake
