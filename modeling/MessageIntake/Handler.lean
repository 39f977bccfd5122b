import MessageIntake.Client
import MessageIntake.Config.Basic

/-!
# Settling by a handler's verdict

Runs the application's handler on a delivery and settles the delivery by
its verdict: success acknowledges it, failure rejects it. The verdict is
handed back untouched, unless the channel fails.
-/

namespace MessageIntake

open Client

/-- Settles on `channel`; `requeueOnFailure` says whether a rejected
delivery goes back to its queue. -/
structure AcknowledgeHandler where
  channel : ChannelId
  requeueOnFailure : Bool := true
  deriving DecidableEq, Repr, Inhabited

namespace AcknowledgeHandler

/-- The handler that a configuration asks for. -/
def ofConfig (channel : ChannelId) (config : Config) : AcknowledgeHandler :=
  ⟨channel, config.requeueOnFailure⟩

/-- Settles `d` by the verdict on it. -/
def settle {ε α : Type} (h : AcknowledgeHandler) (d : Delivery) (verdict : Except ε α) :
    Action (Result (Except ε α)) :=
  match verdict with
  | .ok _ => (Client.channel h.channel (.acknowledge d.tag)).andThen fun _ => do
    log .debug s!"delivery {d.tag} handled and acknowledged"
    return .ok verdict
  | .error _ => (Client.channel h.channel (.reject d.tag h.requeueOnFailure)).andThen fun _ => do
    log .warn s!"handler failed for delivery {d.tag}, rejected with requeue={Text.truth h.requeueOnFailure}"
    return .ok verdict

/-- Runs `handler` on `d`, then settles `d` by its verdict. -/
def invoke {ε α : Type} (h : AcknowledgeHandler) (d : Delivery)
    (handler : Delivery → Action (Except ε α)) : Action (Result (Except ε α)) := do
  h.settle d (← handler d)

/-- The handler for a developer. -/
def inspect (h : AcknowledgeHandler) : String :=
  s!"MessageAcknowledgeHandler \x7b requeue_on_failure: {Text.truth h.requeueOnFailure}, .. \x7d"

end AcknowledgeHandler

end MessageIntake
