import MessageIntake.Error

/-!
# Shutdown reasons

Why the transport under a consumer went away: who closed it, with which
code and which text. Code 200 is a clean close.
-/

namespace MessageIntake

/-- Who closed the transport. -/
inductive ShutdownInitiator where
  | application
  | library
  | peer
  deriving DecidableEq, Repr

namespace ShutdownInitiator

def text : ShutdownInitiator → String
  | application => "APPLICATION"
  | library => "LIBRARY"
  | peer => "PEER"

def inspect : ShutdownInitiator → String
  | application => "Application"
  | library => "Library"
  | peer => "Peer"

end ShutdownInitiator

structure ShutdownReason where
  initiator : ShutdownInitiator
  code : UInt16
  text : String
  deriving DecidableEq, Repr

namespace ShutdownReason

/-- The code of a close without fault. -/
def success : UInt16 := 200

/-- A close that the application asked for. -/
def application : ShutdownReason := ⟨.application, success, "Goodbye"⟩

/-- Whether the transport was closed without fault. -/
def isClean (reason : ShutdownReason) : Bool := reason.code = success

def message (reason : ShutdownReason) : String :=
  s!"ShutdownReason [initiator={reason.initiator.text}, code={reason.code}, text={reason.text}]"

def inspect (reason : ShutdownReason) : String :=
  Text.record "ShutdownReason"
    [("initiator", reason.initiator.inspect), ("reply_code", toString reason.code),
      ("reply_text", Text.quoted reason.text)]

end ShutdownReason

end MessageIntake
