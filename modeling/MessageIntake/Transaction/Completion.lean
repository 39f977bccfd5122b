import MessageIntake.Client

/-!
# Completing a transaction

Commit, rollback, the verdict that the outcome is unknown, and what
becomes of a transaction that is discarded while active. Each takes the
participants out under the lock, tells them one by one, and only then
sets the outcome; so a participant that uses its transaction while it is
told finds it completing.

A commit first asks every participant to prepare, in order, up to the
first that fails. All other notices go to every participant, whatever
they answer, and the first failure is the result.
-/

namespace MessageIntake

open Client

namespace Enlistment

/-- Sends `call` unless the delivery is settled already. -/
def settle (e : Enlistment) (call : Channel.Call) : Action (Result Unit) := do
  if ← under (.settle e.flag) then Client.channel e.channel call
  else return .ok ()

/-- What an enlistment does with a notice: a commit acknowledges its
delivery, a rollback rejects it back to its queue, and only the first of
these has an effect. -/
def notify (e : Enlistment) : Notice → Action (Result Unit)
  | .prepare => return .ok ()
  | .commit => e.settle (.acknowledge e.tag)
  | .rollback => e.settle (.reject e.tag true)
  | .inDoubt => do
    log .debug s!"delivery {e.tag} left unsettled, transaction in doubt"
    return .ok ()

end Enlistment

namespace Transaction

/-- Asks participants to prepare, up to the first failure. -/
def prepareAll : List Participant → Action (Result Unit)
  | [] => return .ok ()
  | p :: rest => (notify p .prepare).andThen fun _ => prepareAll rest

/-- Tells every participant; the first failure, if any. -/
def notifyAll (notice : Notice) : List Participant → Action (Option Error)
  | [] => return none
  | p :: rest => do
    match ← notify p notice with
    | .ok _ => notifyAll notice rest
    | .error e =>
      log .warn s!"transaction participant failed: {e.message}"
      let _ ← notifyAll notice rest
      return some e

/-- Tells every participant that the outcome is unknown; they cannot
fail at it. -/
def doubtAll : List Participant → Action Unit
  | [] => return ()
  | p :: rest => do
    let _ ← notify p .inDoubt
    doubtAll rest

/-- The first failure as a result. -/
def resultOf : Option Error → Result Unit
  | none => .ok ()
  | some e => .error e

/-- Commits in two phases. A participant that fails to prepare has all of
them rolled back. -/
def commit (t : TransactionId) : Action (Result Unit) :=
  (transaction t .begin).andThen fun participants => do
    match ← prepareAll participants with
    | .error cause =>
      -- Also those that were not asked to prepare are rolled back.
      log .warn s!"transaction aborted during prepare, rolling back: {cause.message}"
      let failure ← notifyAll .rollback participants
      let _ ← transaction t (.finish .rolledBack)
      match failure with
      | some e => return .error e
      | none => return .error (.transaction (.aborted cause.message))
    | .ok _ =>
      let failure ← notifyAll .commit participants
      let _ ← transaction t (.finish .committed)
      log .debug s!"transaction committed, {participants.length} participant(s)"
      return resultOf failure

/-- Rolls every participant back. -/
def rollback (t : TransactionId) : Action (Result Unit) :=
  (transaction t .begin).andThen fun participants => do
    let failure ← notifyAll .rollback participants
    let _ ← transaction t (.finish .rolledBack)
    log .debug s!"transaction rolled back, {participants.length} participant(s)"
    return resultOf failure

/-- Completes with an unknown outcome. -/
def markInDoubt (t : TransactionId) : Action (Result Unit) :=
  (transaction t .begin).andThen fun participants => do
    doubtAll participants
    let _ ← transaction t (.finish .inDoubt)
    log .warn s!"transaction in doubt, {participants.length} participant(s) left unsettled"
    return .ok ()

/-- What happens when the last user of a transaction lets it go: an
active one is rolled back, and failures are only logged. -/
def discard (t : TransactionId) : Action Unit := do
  let participants ← transaction t .abandon
  if (participants : List Participant).isEmpty then return ()
  else
    log .warn
      s!"transaction dropped while active, rolling back {participants.length} participant(s)"
    match ← notifyAll .rollback participants with
    | none => return ()
    | some e => log .warn s!"implicit rollback failed: {e.message}"

end Transaction

end MessageIntake
