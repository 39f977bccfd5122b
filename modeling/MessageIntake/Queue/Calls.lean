import MessageIntake.Queue.Basic

/-!
# Programs that call a queue

A queue on its own serves its calls one pass at a time: a call that has
to wait sleeps until the queue changes. `Iterator.next` is the one
operation that is a program over these calls rather than a call.
-/

namespace MessageIntake.Queue

variable {α : Type}

/-- What may be asked of a queue. -/
@[reducible] def interface (α : Type) : Interface := ⟨Call α, Call.Answer⟩

/-- The condition that the callers of a queue on its own sleep on. -/
def available : Condition := 0

instance : Server (interface α) (Queue α) where
  serve visit q c := (q.pass visit c).served available id

/-- The program that makes one call. -/
def call (c : Call α) : Program (interface α) c.Answer := Program.request (I := interface α) c

/-- The next step of an iterator. -/
def Iterator.next (it : Iterator) : Program (interface α) (Iterator × Option α) := do
  if it.finished then return (it, none)
  else return it.take (← call .dequeue)

end MessageIntake.Queue
