import MessageIntake.Shutdown

/-!
# The lifecycle of a consumer

A consumer is created, consumes, may lose its transport, and is canceled
at the end. The lifecycle also keeps the tag that the broker gave, why
the transport went away, and whether the broker was asked to cancel.
Every change to it is a `Section`, done under one lock.

`Lifecycle.state_run_le` says that no section moves the state back.
-/

namespace MessageIntake

/-- The states of a consumer, in the order they are passed. -/
inductive ConsumerState where
  | created
  | consuming
  | transportLost
  | canceled
  deriving DecidableEq, Repr

namespace ConsumerState

instance : Inhabited ConsumerState := ⟨created⟩

/-- How far a state is from the first. -/
def rank : ConsumerState → Nat
  | created => 0
  | consuming => 1
  | transportLost => 2
  | canceled => 3

def text : ConsumerState → String
  | created => "CREATED"
  | consuming => "CONSUMING"
  | transportLost => "TRANSPORT_LOST"
  | canceled => "CANCELED"

def inspect : ConsumerState → String
  | created => "Created"
  | consuming => "Consuming"
  | transportLost => "TransportLost"
  | canceled => "Canceled"

/-- Whether no state follows. -/
def isTerminal (s : ConsumerState) : Bool := s = canceled

end ConsumerState

structure Lifecycle where
  state : ConsumerState := .created
  consumerTag : Option String := none
  shutdownReason : Option ShutdownReason := none
  /-- Whether some call has asked the broker to cancel. -/
  cancelRequested : Bool := false
  deriving DecidableEq, Repr, Inhabited

namespace Lifecycle

/-- What can be done to a lifecycle under its lock. -/
inductive Section where
  /-- The broker has started the consumer under a tag. -/
  | start (consumerTag : String)
  /-- A call wants to cancel: the first one while consuming gets the tag
  to cancel with. -/
  | requestCancel
  /-- The transport went away. -/
  | loseTransport (reason : ShutdownReason)
  /-- The consumer ends, whatever its state. -/
  | cancel
  /-- Looks at the lifecycle. -/
  | look
  deriving DecidableEq, Repr

/-- The answer of a section: whether the start was in order; the tag to
cancel with; whether the loss counts; the state that the end found, with
the tag; the lifecycle. -/
@[reducible] def Section.Answer : Section → Type
  | .start _ => Result Unit
  | .requestCancel => Option String
  | .loseTransport _ => Bool
  | .cancel => ConsumerState × Option String
  | .look => Lifecycle

/-- Does a section. -/
def run (l : Lifecycle) : (s : Section) → Lifecycle × s.Answer
  | .start tag =>
    if l.state = .created then
      ({ l with state := .consuming, consumerTag := some tag }, .ok ())
    else (l, .error (.consumerInvalidState ConsumerState.created.text l.state.text))
  | .requestCancel =>
    if l.state = .consuming ∧ ¬ l.cancelRequested then
      ({ l with cancelRequested := true }, l.consumerTag)
    else (l, none)
  | .loseTransport reason =>
    if l.state.isTerminal then (l, false)
    else ({ l with state := .transportLost, shutdownReason := some reason }, true)
  | .cancel => ({ l with state := .canceled }, (l.state, l.consumerTag))
  | .look => (l, l)

/-- **No section moves the state back.** -/
theorem state_run_le (l : Lifecycle) (s : Section) : l.state.rank ≤ (l.run s).1.state.rank := by
  obtain ⟨state, tag, reason, requested⟩ := l
  cases s <;> cases state <;> simp [run, ConsumerState.rank, ConsumerState.isTerminal]
  cases requested <;> simp

end Lifecycle

end MessageIntake
