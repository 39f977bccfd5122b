import MessageIntake.Timeout

/-!
# How much a session waits, and how its iterations end

A session never makes a call on its own sequence that would wait longer
than `patience`; it says so instead.
-/

namespace MessageIntake.Session

/-- The longest wait that a session makes on its own sequence. -/
def patience : Duration := .ofMillis 20

/-- How an iteration ends: with as many items as asked for, with the end
of the stream (`again` says whether a further step still gave an item),
or before a step that would wait too long. -/
inductive Ending where
  | full
  | ended (again : Bool)
  | wouldBlock
  deriving DecidableEq, Repr

end MessageIntake.Session
