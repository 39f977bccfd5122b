import MessageIntake.Proofs.Machine.Schedule
import MessageIntake.Queue.Calls

/-!
# A queue neither loses, doubles nor reorders

However many threads call a queue, in whatever order their passes
through its lock come, and whenever they wake: what was handed out,
followed by what is buffered, is what was accepted. The threads run any
programs over the calls of the queue, so iterators are among them. A
call may pass through the lock many times before it takes an item, but
each pass by itself conserves (`conserves`).
-/

namespace MessageIntake.Queue

variable {α β : Type}

/-- The item that leaves the queue for a caller. The default of a call
that does not wait comes from the caller and not from the queue. -/
def handedOut? : Event (interface α) (Queue α) → Option α
  | ⟨_, _, Call.dequeue, some (.ok item), _⟩ => some item
  | ⟨_, _, Call.tryDequeue, some (.ok item?), _⟩ => item?
  | ⟨_, _, Call.dequeueTimeout _, some (.ok item?), _⟩ => item?
  | ⟨_, before, Call.dequeueNoWait _, some (.ok item), _⟩ =>
    if before.items.isEmpty then none else some item
  | _ => none

/-- The item that an enqueue has put into the queue, if it returned
without error. -/
def accepted? : Event (interface α) (Queue α) → Option α
  | ⟨_, _, Call.enqueue item, some (.ok _), _⟩ => some item
  | _ => none

/-- The items that were handed out, in the order they left the queue. -/
def handedOut (trace : List (Event (interface α) (Queue α))) : List α :=
  trace.filterMap handedOut?

/-- The items whose enqueue returned without error, in this order. -/
def accepted (trace : List (Event (interface α) (Queue α))) : List α :=
  trace.filterMap accepted?

/-- The answer of a pass that returns. -/
def Turn.answer? : Turn β → Option β
  | .returns answer => some answer
  | .sleeps _ => none

/-- An event of a queue on its own is one pass. -/
theorem event_of (i : Nat) (visit : Visit) (q : Queue α) (c : (interface α).Request) :
    Event.of i visit q c = ⟨i, q, c, (q.pass visit c).turn.answer?, (q.pass visit c).queue⟩ := by
  simp only [Event.of, Server.serve, Pass.served]
  cases h : (q.pass visit c).turn <;> rfl

/-- **One pass conserves**: what it takes comes off the front, and what
it accepts goes to the end. -/
theorem conserves (i : Nat) (visit : Visit) (q : Queue α) (c : (interface α).Request) :
    (handedOut? (.of i visit q c)).toList ++ (Event.of i visit q c).after.items =
      q.items ++ (accepted? (.of i visit q c)).toList := by
  rw [event_of]
  obtain ⟨items, isOpen⟩ := q
  -- a timeout decides only whether a caller that finds nothing sleeps on
  cases c with
  | enqueue item =>
    cases isOpen <;> simp [pass, Turn.answer?, handedOut?, accepted?]
  | dequeue | tryDequeue | dequeueNoWait default =>
    cases items <;> cases isOpen <;> simp [pass, take, Turn.answer?, handedOut?, accepted?]
  | dequeueTimeout timeout | waitForMessage timeout =>
    by_cases hup : timeUp (timeout.deadline visit.started) visit.now <;>
      cases items <;> cases isOpen <;>
      simp [pass, take, hup, Turn.answer?, handedOut?, accepted?]
  | close => cases isOpen <;> simp [pass, handedOut?, accepted?]
  | look => simp [pass, handedOut?, accepted?]

section Pass

variable {i : Nat} {visit : Visit} {q : Queue α} {c : (interface α).Request} {item : α}

/-- What a pass hands out was buffered. -/
theorem mem_items_of_handedOut (h : handedOut? (.of i visit q c) = some item) :
    item ∈ q.items := by
  have hpass := conserves i visit q c
  have haccepted : accepted? (.of i visit q c) = none := by
    rw [event_of] at h ⊢
    cases c with
    | enqueue => cases h
    | _ => rfl
  rw [h, haccepted] at hpass
  have hmem : item ∈ [item] ++ (Event.of i visit q c).after.items := by simp
  rw [show (some item).toList = [item] from rfl] at hpass
  rw [hpass] at hmem
  simpa using hmem

/-- What is buffered after a pass was there before it or is accepted by
it. -/
theorem mem_items_or_accepted (h : item ∈ (Event.of i visit q c).after.items) :
    item ∈ q.items ∨ accepted? (.of i visit q c) = some item := by
  have hpass := conserves i visit q c
  have hmem : item ∈ q.items ++ (accepted? (.of i visit q c)).toList :=
    hpass ▸ List.mem_append_right _ h
  simpa using hmem

theorem eq_enqueue_of_accepted (h : accepted? (.of i visit q c) = some item) :
    c = Call.enqueue item := by
  rw [event_of] at h
  cases c with
  | enqueue other =>
    cases hopen : q.isOpen with
    | true =>
      simp only [pass, hopen, if_true, Turn.answer?, accepted?, Option.some_inj] at h
      rw [h]
    | false => simp [pass, hopen, Turn.answer?, accepted?] at h
  | _ => cases h

end Pass

/-- A run of a new queue. -/
def runNew (programs : List (Program (interface α) β))
    (schedule : List (Machine.Move (interface α) β)) : History (interface α) (Queue α) β :=
  (Machine.start empty programs).run schedule

end MessageIntake.Queue
