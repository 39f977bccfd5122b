import MessageIntake.Text.Inspection

/-!
# Errors

What can go wrong, by cause: the queue is closed and drained, the
channel refused a call, a transaction is not active or was aborted, a
consumer is in the wrong state, or a configuration cannot be read or
holds a value that is not allowed.
-/

namespace MessageIntake

open Text (quoted record variant truth)

/-- A call on a channel that failed, or a channel that was closed. -/
inductive ChannelError where
  | ackFailed (deliveryTag : UInt64) (reason : String)
  | rejectFailed (deliveryTag : UInt64) (requeue : Bool) (reason : String)
  | cancelFailed (consumerTag reason : String)
  | closed (replyCode : UInt16) (replyText : String)
  deriving DecidableEq, Repr

namespace ChannelError

def message : ChannelError → String
  | ackFailed tag reason => s!"Acknowledge failed for delivery tag {tag}: {reason}"
  | rejectFailed tag requeue reason =>
    s!"Reject failed for delivery tag {tag} (requeue={truth requeue}): {reason}"
  | cancelFailed tag reason => s!"Cancel failed for consumer '{tag}': {reason}"
  | closed code text => s!"Channel closed: code={code}, text={text}"

def inspect : ChannelError → String
  | ackFailed tag reason =>
    record "AckFailed" [("delivery_tag", toString tag), ("reason", quoted reason)]
  | rejectFailed tag requeue reason =>
    record "RejectFailed"
      [("delivery_tag", toString tag), ("requeue", truth requeue), ("reason", quoted reason)]
  | cancelFailed tag reason =>
    record "CancelFailed" [("consumer_tag", quoted tag), ("reason", quoted reason)]
  | closed code text =>
    record "Closed" [("reply_code", toString code), ("reply_text", quoted text)]

/-- The delivery whose settlement failed. -/
def deliveryTag? : ChannelError → Option UInt64
  | ackFailed tag _ | rejectFailed tag _ _ => some tag
  | _ => none

end ChannelError

/-- A transaction that cannot do what is asked. -/
inductive TransactionError where
  | notActive (state : String)
  | aborted (reason : String)
  deriving DecidableEq, Repr

namespace TransactionError

def message : TransactionError → String
  | notActive state => s!"Transaction is not active: {state}"
  | aborted reason => s!"Transaction aborted: {reason}"

def inspect : TransactionError → String
  | notActive state => record "NotActive" [("state", quoted state)]
  | aborted reason => record "Aborted" [("reason", quoted reason)]

end TransactionError

/-- Every error of the library. -/
inductive Error where
  | queueClosed
  | channel (cause : ChannelError)
  | transaction (cause : TransactionError)
  | consumerInvalidState (expected actual : String)
  | configParseFailed (key reason : String)
  | configInvalidValue (key value reason : String)
  deriving DecidableEq, Repr

namespace Error

def message : Error → String
  | queueClosed => "Queue closed"
  | channel cause => cause.message
  | transaction cause => cause.message
  | consumerInvalidState expected actual =>
    s!"Invalid consumer state: expected {expected}, got {actual}"
  | configParseFailed key reason => s!"Configuration parse error for '{key}': {reason}"
  | configInvalidValue key value reason =>
    s!"Invalid configuration for '{key}': value='{value}', reason={reason}"

def inspect : Error → String
  | queueClosed => "QueueClosed"
  | channel cause => variant "Channel" cause.inspect
  | transaction cause => variant "Transaction" cause.inspect
  | consumerInvalidState expected actual =>
    record "ConsumerInvalidState" [("expected", quoted expected), ("actual", quoted actual)]
  | configParseFailed key reason =>
    record "ConfigParseFailed" [("key", quoted key), ("reason", quoted reason)]
  | configInvalidValue key value reason =>
    record "ConfigInvalidValue"
      [("key", quoted key), ("value", quoted value), ("reason", quoted reason)]

/-- Whether the error says that a queue is closed. -/
def isQueueClosed : Error → Bool
  | queueClosed => true
  | _ => false

/-- The delivery whose settlement failed. -/
def deliveryTag? : Error → Option UInt64
  | channel cause => cause.deliveryTag?
  | _ => none

theorem isQueueClosed_iff (e : Error) : e.isQueueClosed ↔ e = queueClosed := by
  cases e <;> simp [isQueueClosed]

end Error

/-- The result of an operation of the library. -/
abbrev Result (α : Type) := Except Error α

end MessageIntake
