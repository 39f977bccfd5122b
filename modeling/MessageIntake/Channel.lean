import MessageIntake.Error

/-!
# Calls on a channel

The three things that are asked of the broker through a channel. Any of
them may fail.
-/

namespace MessageIntake

/-- Names a channel. -/
abbrev ChannelId := Nat

namespace Channel

inductive Call where
  | acknowledge (tag : UInt64)
  | reject (tag : UInt64) (requeue : Bool)
  | cancel (consumerTag : String)
  deriving DecidableEq, Repr

/-- The kind of a call. -/
inductive Kind where
  | acknowledge
  | reject
  | cancel
  deriving DecidableEq, Repr

namespace Call

def kind : Call → Kind
  | acknowledge _ => .acknowledge
  | reject _ _ => .reject
  | cancel _ => .cancel

/-- The delivery that a call settles; zero if it settles none. -/
def tag : Call → UInt64
  | acknowledge tag | reject tag _ => tag
  | cancel _ => 0

/-- Whether a rejected delivery goes back to its queue. -/
def requeue : Call → Bool
  | reject _ requeue => requeue
  | _ => false

/-- The consumer that a call cancels; empty if it cancels none. -/
def consumerTag : Call → String
  | cancel consumerTag => consumerTag
  | _ => ""

end Call

end Channel

end MessageIntake
