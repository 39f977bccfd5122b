import MessageIntake.Channel

/-!
# Transactions

A transaction collects participants while it is active and tells every
one of them its outcome when it completes. Its state is the status and
the participants not yet told; every change to it is a `Section`, done
under one lock. A completion is a program made of sections and of the
notifications between them (`Transaction.commit` and its kin).
-/

namespace MessageIntake

/-- Names a transaction. -/
abbrev TransactionId := Nat

/-- Names the settled flag of an enlistment. -/
abbrev EnlistmentId := Nat

/-- Names a participant that the library knows nothing about. -/
abbrev ParticipantId := Nat

inductive TransactionStatus where
  | active
  /-- Participants are being told the outcome. -/
  | completing
  | committed
  | rolledBack
  | inDoubt
  deriving DecidableEq, Repr

namespace TransactionStatus

instance : Inhabited TransactionStatus := ⟨active⟩

def text : TransactionStatus → String
  | active => "ACTIVE"
  | completing => "COMPLETING"
  | committed => "COMMITTED"
  | rolledBack => "ROLLED_BACK"
  | inDoubt => "IN_DOUBT"

def inspect : TransactionStatus → String
  | active => "Active"
  | completing => "Completing"
  | committed => "Committed"
  | rolledBack => "RolledBack"
  | inDoubt => "InDoubt"

/-- Whether the status is an outcome. -/
def isFinal : TransactionStatus → Bool
  | active | completing => false
  | committed | rolledBack | inDoubt => true

end TransactionStatus

/-- Settles one delivery, once, when its transaction completes: under
`tag`, on `channel`, unless its flag is already set. -/
structure Enlistment where
  flag : EnlistmentId
  tag : UInt64
  channel : ChannelId
  deriving DecidableEq, Repr, Inhabited

/-- Takes part in a transaction. -/
inductive Participant where
  | delivery (enlistment : Enlistment)
  | other (id : ParticipantId)
  deriving DecidableEq, Repr

/-- What a participant is told. -/
inductive Notice where
  | prepare
  | commit
  | rollback
  | inDoubt
  deriving DecidableEq, Repr

/-- The state of a transaction. -/
structure Transaction where
  status : TransactionStatus := .active
  participants : List Participant := []
  deriving DecidableEq, Repr, Inhabited

namespace Transaction

/-- The error of a call that needs an active transaction. -/
def notActive (status : TransactionStatus) : Error := .transaction (.notActive status.text)

/-- Fails unless the transaction is active. -/
def ensureActive (t : Transaction) : Result Unit :=
  if t.status = .active then .ok () else .error (notActive t.status)

/-- What can be done to a transaction under its lock. -/
inductive Section where
  | ensureActive
  | enlist (participant : Participant)
  /-- Starts a completion: the participants are taken out. -/
  | begin
  /-- Ends a completion. -/
  | finish (outcome : TransactionStatus)
  /-- The transaction is discarded: if it is active it is rolled back, and
  its participants are taken out. -/
  | abandon
  /-- Looks at the transaction. -/
  | look
  deriving DecidableEq, Repr

@[reducible] def Section.Answer : Section → Type
  | .ensureActive => Result Unit
  | .enlist _ => Result Unit
  | .begin => Result (List Participant)
  | .finish _ => Unit
  | .abandon => List Participant
  | .look => Transaction

/-- Does a section. -/
def run (t : Transaction) : (s : Section) → Transaction × s.Answer
  | .ensureActive => (t, t.ensureActive)
  | .enlist participant =>
    if t.status = .active then
      ({ t with participants := t.participants ++ [participant] }, .ok ())
    else (t, .error (notActive t.status))
  | .begin =>
    if t.status = .active then (⟨.completing, []⟩, .ok t.participants)
    else (t, .error (notActive t.status))
  | .finish outcome => ({ t with status := outcome }, ())
  | .abandon =>
    if t.status = .active then (⟨.rolledBack, []⟩, t.participants)
    else (t, [])
  | .look => (t, t)

end Transaction

end MessageIntake
