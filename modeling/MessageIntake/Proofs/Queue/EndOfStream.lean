import MessageIntake.Proofs.Queue.Conservation

/-!
# A closed queue ends its stream

A queue is closed once and for good. Its buffered items can still be
taken, by whatever mix of calls, and then the stream has ended: every
dequeue fails, every wait is in vain, and every iterator stops.
`ends_stream` says so of every run. Behind it are three facts about one
pass: only a close closes (`isOpen_after`), a dequeue fails only on a
closed queue without items (`before_of_failure`), and on a closed queue
each dequeue takes the first item or fails (`outcome?_of_closed`). The
last one counts down what is left (`drained`).
-/

namespace MessageIntake.Queue

variable {α β : Type}

/-- Whether an event is a pass of a call that takes an item. -/
def isDequeue : Event (interface α) (Queue α) → Bool
  | ⟨_, _, Call.dequeue, _, _⟩ => true
  | ⟨_, _, Call.tryDequeue, _, _⟩ => true
  | ⟨_, _, Call.dequeueTimeout _, _, _⟩ => true
  | ⟨_, _, Call.dequeueNoWait _, _, _⟩ => true
  | _ => false

/-- What a dequeue comes back with: an item of the queue, or an error. A
call that is not back yet has neither, and one that comes back from an
open queue without an item. -/
def outcome? : Event (interface α) (Queue α) → Option (Result α)
  | ⟨_, _, Call.dequeue, some answer, _⟩ => some answer
  | ⟨_, _, Call.tryDequeue, some (.ok item?), _⟩ => item?.map .ok
  | ⟨_, _, Call.tryDequeue, some (.error e), _⟩ => some (.error e)
  | ⟨_, _, Call.dequeueTimeout _, some (.ok item?), _⟩ => item?.map .ok
  | ⟨_, _, Call.dequeueTimeout _, some (.error e), _⟩ => some (.error e)
  | ⟨_, before, Call.dequeueNoWait _, some (.ok item), _⟩ =>
    if before.items.isEmpty then none else some (.ok item)
  | ⟨_, _, Call.dequeueNoWait _, some (.error e), _⟩ => some (.error e)
  | _ => none

/-- Whether an event closes the queue. -/
def closes (e : Event (interface α) (Queue α)) : Bool := e.before.isOpen && !e.after.isOpen

/-! ## One pass -/

section Pass

variable {i : Nat} {visit : Visit} {q : Queue α} {c : Call α}

/-- **Only a close closes**, and nothing opens. -/
theorem isOpen_after :
    (Event.of (I := interface α) i visit q c).after.isOpen ↔ q.isOpen ∧ c ≠ Call.close := by
  rw [event_of]
  obtain ⟨items, isOpen⟩ := q
  cases c with
  | enqueue item => cases isOpen <;> simp [pass]
  | dequeue | tryDequeue | dequeueNoWait default => cases items <;> simp [pass, take]
  | dequeueTimeout timeout => cases items <;> simp [pass, take]
  | waitForMessage timeout =>
    cases items with
    | nil =>
      simp only [pass]
      split <;> simp
    | cons item rest => simp [pass]
  | close => cases isOpen <;> simp [pass]
  | look => simp [pass]

/-- **A dequeue fails only at the end of the stream.** -/
theorem before_of_failure {err : Error}
    (h : outcome? (.of (I := interface α) i visit q c) = some (.error err)) :
    err = .queueClosed ∧ q = ⟨[], false⟩ := by
  rw [event_of] at h
  obtain ⟨items, isOpen⟩ := q
  cases c with
  | enqueue item => simp [outcome?] at h
  | dequeue | tryDequeue | dequeueNoWait default =>
    cases items <;> cases isOpen <;> simp_all [pass, take, Turn.answer?, outcome?]
  | dequeueTimeout timeout =>
    by_cases hup : timeUp (timeout.deadline visit.started) visit.now <;>
      cases items <;> cases isOpen <;> simp_all [pass, take, Turn.answer?, outcome?]
  | waitForMessage timeout | close | look => simp [outcome?] at h

/-- **On a closed queue a dequeue takes the first item, or fails**; it
does not wait. -/
theorem outcome?_of_closed (hq : q.isOpen = false)
    (hcall : isDequeue (.of (I := interface α) i visit q c)) :
    outcome? (.of (I := interface α) i visit q c) =
        some ((q.items.head?.map .ok).getD (.error .queueClosed)) ∧
      (Event.of (I := interface α) i visit q c).after = ⟨q.items.tail, false⟩ := by
  rw [event_of] at hcall ⊢
  obtain ⟨items, isOpen⟩ := q
  obtain rfl : isOpen = false := hq
  cases c with
  | dequeue | tryDequeue | dequeueNoWait default | dequeueTimeout timeout =>
    cases items <;> exact ⟨rfl, rfl⟩
  | enqueue item | waitForMessage timeout | close | look => cases hcall

/-- Any other pass leaves a closed queue as it is. -/
theorem after_of_closed (hq : q.isOpen = false)
    (hcall : isDequeue (.of (I := interface α) i visit q c) = false) :
    outcome? (.of (I := interface α) i visit q c) = none ∧
      (Event.of (I := interface α) i visit q c).after = q := by
  rw [event_of] at hcall ⊢
  obtain ⟨items, isOpen⟩ := q
  obtain rfl : isOpen = false := hq
  cases c with
  | dequeue | tryDequeue | dequeueNoWait default | dequeueTimeout timeout => cases hcall
  | enqueue item | close | look => exact ⟨rfl, rfl⟩
  | waitForMessage timeout => cases items <;> exact ⟨rfl, rfl⟩

/-- So a failure leaves the queue at the end of the stream. -/
theorem after_of_failure {err : Error}
    (h : outcome? (.of (I := interface α) i visit q c) = some (.error err)) :
    (Event.of (I := interface α) i visit q c).after = ⟨[], false⟩ := by
  obtain ⟨-, rfl⟩ := before_of_failure h
  cases hcall : isDequeue (.of (I := interface α) i visit ⟨[], false⟩ c) with
  | true => exact (outcome?_of_closed rfl hcall).2
  | false => exact (after_of_closed rfl hcall).2

/-- Nothing is accepted by a closed queue. -/
theorem accepted?_of_closed (hq : q.isOpen = false) :
    accepted? (.of (I := interface α) i visit q c) = none := by
  rw [event_of]
  obtain ⟨items, isOpen⟩ := q
  obtain rfl : isOpen = false := hq
  cases c <;> rfl

end Pass

/-! ## Every run -/

/-- What comes of the next `n` dequeues on a closed queue: an item each
while there are any, and then an error each. -/
def remainder (items : List α) (n : Nat) : List (Result α) :=
  (items.take n).map .ok ++ List.replicate (n - items.length) (.error .queueClosed)

/-- One dequeue more takes the next item, if one is left. -/
theorem remainder_succ (items : List α) (n : Nat) :
    remainder items (n + 1) =
      remainder items n ++ [((items.drop n).head?.map .ok).getD (.error .queueClosed)] := by
  unfold remainder
  rw [List.head?_drop]
  rcases Nat.lt_or_ge n items.length with hlt | hge
  · have hnone : n - items.length = 0 := by omega
    have hnone' : n + 1 - items.length = 0 := by omega
    rw [hnone, hnone', List.getElem?_eq_getElem hlt, ← List.take_append_getElem hlt]
    simp [-List.take_append_getElem]
  · have hmore : n + 1 - items.length = (n - items.length) + 1 := by omega
    rw [hmore, List.getElem?_eq_none hge, List.take_of_length_le hge,
      List.take_of_length_le (by omega), List.replicate_succ']
    simp

/-- **A closed queue is drained**: in every run from there on, the
dequeues take the items that were left, one after another, and then they
fail. -/
theorem drained {m : Machine (interface α) (Queue α) β} {items : List α}
    (hm : m.shared = ⟨items, false⟩) (schedule : List (Machine.Move (interface α) β)) :
    let n := (m.run schedule).trace.countP isDequeue
    (m.run schedule).machine.shared = ⟨items.drop n, false⟩ ∧
      (m.run schedule).trace.filterMap outcome? = remainder items n ∧
      accepted (m.run schedule).trace = [] := by
  refine Machine.run_induction (P := fun h : History (interface α) (Queue α) β =>
    h.machine.shared = ⟨items.drop (h.trace.countP isDequeue), false⟩ ∧
      h.trace.filterMap outcome? = remainder items (h.trace.countP isDequeue) ∧
      accepted h.trace = []) ?_ ?_ schedule
  · exact ⟨by simpa using hm, by simp [remainder], rfl⟩
  · intro schedule move ih
    generalize m.run schedule = h at ih ⊢
    rcases h.step_cases move with ⟨htrace, hshared, -⟩ | ⟨i, visit, c, next, -, htrace, hshared, -⟩
    · rw [htrace, hshared]
      exact ih
    · obtain ⟨hqueue, houtcomes, haccepted⟩ := ih
      have hq : h.machine.shared.isOpen = false := by rw [hqueue]
      have hmore : accepted (h.step move).trace = [] := by
        rw [htrace, accepted, filterMap_concat, ← accepted, haccepted, accepted?_of_closed hq]
        rfl
      cases hcall : isDequeue (.of i visit h.machine.shared c) with
      | true =>
        obtain ⟨houtcome, hafter⟩ := outcome?_of_closed hq hcall
        have hcount : (h.step move).trace.countP isDequeue = h.trace.countP isDequeue + 1 := by
          rw [htrace, List.countP_append]
          simp [hcall]
        refine ⟨?_, ?_, hmore⟩
        · have hstate : (h.step move).machine.shared = ⟨h.machine.shared.items.tail, false⟩ :=
            hshared.trans hafter
          rw [hstate, hqueue, hcount, ← List.tail_drop]
        · rw [hcount, remainder_succ, htrace, filterMap_concat, houtcomes, houtcome, hqueue]
          rfl
      | false =>
        obtain ⟨houtcome, hafter⟩ := after_of_closed hq hcall
        have hcount : (h.step move).trace.countP isDequeue = h.trace.countP isDequeue := by
          rw [htrace, List.countP_append]
          simp [hcall]
        refine ⟨?_, ?_, hmore⟩
        · rw [hcount, ← hqueue]
          exact hshared.trans hafter
        · rw [hcount, htrace, filterMap_concat, houtcomes, houtcome]
          simp

/-- At the end of the stream every event finds the queue so. -/
theorem event_of_drained {m : Machine (interface α) (Queue α) β} (hm : m.shared = ⟨[], false⟩)
    {schedule : List (Machine.Move (interface α) β)} {e : Event (interface α) (Queue α)}
    (he : e ∈ (m.run schedule).trace) :
    ∃ i visit c, e = .of (I := interface α) i visit ⟨[], false⟩ c := by
  obtain ⟨before, later, htrace⟩ := List.append_of_mem he
  obtain ⟨earlier, i, visit, c, -, hevent⟩ := Machine.event_point schedule htrace
  rw [(drained hm earlier).1, List.drop_nil] at hevent
  exact ⟨i, visit, c, hevent⟩

/-- An event of a run from a closed queue finds the queue closed, and
leaves it so. -/
theorem closed_of_mem {m : Machine (interface α) (Queue α) β} (hm : m.shared.isOpen = false)
    {schedule : List (Machine.Move (interface α) β)} {e : Event (interface α) (Queue α)}
    (he : e ∈ (m.run schedule).trace) : e.before.isOpen = false ∧ e.after.isOpen = false := by
  obtain ⟨before, later, htrace⟩ := List.append_of_mem he
  obtain ⟨earlier, i, visit, c, -, rfl⟩ := Machine.event_point schedule htrace
  have hbefore : (m.run earlier).machine.shared.isOpen = false := by
    have hqueue : m.shared = ⟨m.shared.items, false⟩ := by rw [← hm]
    rw [(drained hqueue earlier).1]
  refine ⟨hbefore, Bool.eq_false_iff.mpr fun hopen => ?_⟩
  have hwas := (isOpen_after.mp hopen).1
  rw [hbefore] at hwas
  exact Bool.false_ne_true hwas

/-- An event of a run is a pass. -/
theorem pass_of_mem {m : Machine (interface α) (Queue α) β}
    {schedule : List (Machine.Move (interface α) β)} {i : Nat} {q q' : Queue α} {c : Call α}
    {answer : Option c.Answer}
    (he : (⟨i, q, c, answer, q'⟩ : Event (interface α) (Queue α)) ∈ (m.run schedule).trace) :
    ∃ visit, answer = (q.pass visit c).turn.answer? ∧ q' = (q.pass visit c).queue := by
  obtain ⟨visit, he⟩ := Machine.exists_of_mem_trace he
  rw [event_of] at he
  simp only [Event.mk.injEq, heq_eq_eq, true_and] at he
  exact ⟨visit, he⟩

/-- What a run hands out and keeps is what it found and accepted. -/
theorem conserves_run {m : Machine (interface α) (Queue α) β}
    (schedule : List (Machine.Move (interface α) β)) :
    handedOut (m.run schedule).trace ++ (m.run schedule).machine.shared.items =
      m.shared.items ++ accepted (m.run schedule).trace := by
  refine Machine.run_induction (P := fun h : History (interface α) (Queue α) β =>
    handedOut h.trace ++ h.machine.shared.items = m.shared.items ++ accepted h.trace)
    (by simp [handedOut, accepted]) ?_ schedule
  intro schedule move ih
  generalize m.run schedule = h at ih ⊢
  rcases h.step_cases move with ⟨htrace, hshared, -⟩ | ⟨i, visit, c, next, -, htrace, hshared, -⟩
  · rw [htrace, hshared, ih]
  · have hpass := conserves i visit h.machine.shared c
    rw [htrace, hshared, handedOut, filterMap_concat, ← handedOut, accepted, filterMap_concat,
      ← accepted, ← List.append_assoc, ← ih, List.append_assoc, List.append_assoc, ← hpass]
    rfl

/-- **The queue is closed at most once.** -/
theorem closes_once {m : Machine (interface α) (Queue α) β}
    (schedule : List (Machine.Move (interface α) β)) :
    ((m.run schedule).trace.filter closes).length ≤ 1 := by
  have hcount : ∀ schedule : List (Machine.Move (interface α) β),
      ((m.run schedule).trace.filter closes).length ≤
        (!(m.run schedule).machine.shared.isOpen).toNat := by
    refine Machine.run_induction (P := fun h : History (interface α) (Queue α) β =>
      (h.trace.filter closes).length ≤ (!h.machine.shared.isOpen).toNat) (Nat.zero_le _) ?_
    intro schedule move ih
    generalize m.run schedule = h at ih ⊢
    rcases h.step_cases move with ⟨htrace, hshared, -⟩ | ⟨i, visit, c, next, -, htrace, hshared, -⟩
    · rw [htrace, hshared]
      exact ih
    · have hafter : (Event.of (I := interface α) i visit h.machine.shared c).after.isOpen ↔
          h.machine.shared.isOpen ∧ c ≠ Call.close := isOpen_after
      have hstate : (h.step move).machine.shared =
          (Event.of (I := interface α) i visit h.machine.shared c).after := hshared
      rw [htrace, hstate, List.filter_append, List.length_append]
      cases hopen : h.machine.shared.isOpen <;>
        cases hclosed : (Event.of (I := interface α) i visit h.machine.shared c).after.isOpen <;>
        simp_all [closes, Event.of]
  exact Nat.le_trans (hcount schedule) (Bool.toNat_le _)

/-! ## The end of the stream -/

/-- **What it means that closing ends the stream** of a queue. -/
structure EndsStream (h : History (interface α) (Queue α) β) : Prop where
  /-- A queue that is closed stays closed. -/
  closed : ∀ before e later, h.trace = before ++ e :: later → e.after.isOpen = false →
    h.machine.shared.isOpen = false ∧
      ∀ e' ∈ later, e'.before.isOpen = false ∧ e'.after.isOpen = false
  /-- A close is answered at once, with whether it is the one that closed the
  queue. -/
  close : ∀ i q a q', (⟨i, q, Call.close, a, q'⟩ : Event (interface α) (Queue α)) ∈ h.trace →
    a = some (q.isOpen && !q'.isOpen)
  /-- Nothing else closes the queue, and this happens at most once. -/
  closer : ∀ e ∈ h.trace, closes e → e.request = Call.close
  once : (h.trace.filter closes).length ≤ 1
  /-- An enqueue fails if and only if it finds the queue closed, and then it
  leaves the queue as it is. -/
  enqueue : ∀ i q item a q',
    (⟨i, q, Call.enqueue item, a, q'⟩ : Event (interface α) (Queue α)) ∈ h.trace →
    (a = some (.error .queueClosed) ↔ q.isOpen = false) ∧
      (a = some (.ok ()) ↔ q.isOpen = true) ∧ (q.isOpen = false → q' = q)
  /-- A dequeue fails only for this reason, and only on a closed queue
  without items. -/
  failure : ∀ e ∈ h.trace, ∀ err, outcome? e = some (.error err) →
    err = .queueClosed ∧ e.before = ⟨[], false⟩
  /-- When a dequeue fails, everything that is ever accepted was handed out;
  from then on every dequeue fails, and nobody waits with success. -/
  ended : ∀ before e later err, h.trace = before ++ e :: later →
    outcome? e = some (.error err) →
    handedOut before = accepted before ∧ accepted later = [] ∧
      (∀ e' ∈ later, isDequeue e' → outcome? e' = some (.error .queueClosed)) ∧
      ∀ i q timeout a q', (⟨i, q, Call.waitForMessage timeout, a, q'⟩ :
        Event (interface α) (Queue α)) ∈ later → a = some false
  /-- On a closed queue exactly as many dequeues succeed as items are left,
  whichever calls they are. -/
  drains : ∀ before e later items, h.trace = before ++ e :: later →
    e.after = ⟨items, false⟩ →
    later.filterMap outcome? = remainder items (later.countP isDequeue)
  /-- A step of an iterator is a dequeue, and has no item if and only if this
  fails; then the iterator has finished and asks no more. -/
  iterator : ∀ it : Iterator,
    (it.finished = true → it.next = (.done (it, none) : Program (interface α) _)) ∧
      (it.finished = false → ∃ next : Result α → Program (interface α) (Iterator × Option α),
        it.next = .ask Call.dequeue next ∧ (∀ item, next (.ok item) = .done (it, some item)) ∧
          ∀ err, next (.error err) = .done (⟨true⟩, none))

/-- **Closing a queue ends its stream**, whichever threads call it and
under every schedule. -/
theorem ends_stream (programs : List (Program (interface α) β))
    (schedule : List (Machine.Move (interface α) β)) : EndsStream (runNew programs schedule) where
  closed := by
    intro before e later htrace hclosed
    obtain ⟨m, rest, hm, hlater, hend⟩ := Machine.later_eq_run schedule htrace
    have hqueue : m.shared = ⟨m.shared.items, false⟩ := by rw [← hclosed, hm]
    refine ⟨?_, fun e' he' => ?_⟩
    · rw [runNew, ← hend, (drained hqueue rest).1]
    · rw [← hlater] at he'
      exact closed_of_mem (hm ▸ hclosed) he'
  close := by
    intro i q a q' he
    obtain ⟨visit, rfl, rfl⟩ := pass_of_mem he
    obtain ⟨items, isOpen⟩ := q
    cases isOpen <;> rfl
  closer := by
    intro e he hcloses
    obtain ⟨visit, he⟩ := Machine.exists_of_mem_trace he
    obtain ⟨hopen, hclosed⟩ := Bool.and_eq_true_iff.mp hcloses
    by_contra hne
    rw [he, Bool.not_eq_true', Bool.eq_false_iff] at hclosed
    exact hclosed (isOpen_after.mpr ⟨hopen, hne⟩)
  once := closes_once schedule
  enqueue := by
    intro i q item a q' he
    obtain ⟨visit, rfl, rfl⟩ := pass_of_mem he
    obtain ⟨items, isOpen⟩ := q
    cases isOpen <;> simp [pass, Turn.answer?]
  failure := by
    intro e he err herr
    obtain ⟨visit, he⟩ := Machine.exists_of_mem_trace he
    rw [he] at herr
    exact before_of_failure herr
  ended := by
    intro before e later err htrace herr
    obtain ⟨earlier, -, -, -, hbefore, ⟨i, visit, c, he⟩, -, -⟩ := Machine.run_split schedule htrace
    obtain ⟨m, rest, hm, hlater, -⟩ := Machine.later_eq_run schedule htrace
    subst he
    have hend : m.shared = ⟨[], false⟩ := hm.trans (after_of_failure herr)
    refine ⟨?_, ?_, fun e' he' hcall => ?_, fun j q timeout a q' he' => ?_⟩
    · have hconserved := conserves_run (m := Machine.start (empty : Queue α) programs) earlier
      rw [hbefore, (before_of_failure herr).2] at hconserved
      simpa [Machine.start, empty] using hconserved
    · rw [← hlater]
      exact (drained hend rest).2.2
    · rw [← hlater] at he'
      obtain ⟨j, visit', c', rfl⟩ := event_of_drained hend he'
      exact (outcome?_of_closed rfl hcall).1
    · rw [← hlater] at he'
      obtain ⟨j', visit', c', hevent⟩ := event_of_drained hend he'
      rw [event_of] at hevent
      cases hevent
      rfl
  drains := by
    intro before e later items htrace hafter
    obtain ⟨m, rest, hm, hlater, -⟩ := Machine.later_eq_run schedule htrace
    rw [← hlater]
    exact (drained (hm.trans hafter) rest).2.1
  iterator := by
    intro it
    obtain ⟨finished⟩ := it
    cases finished with
    | true => exact ⟨fun _ => rfl, by rintro ⟨⟩⟩
    | false => exact ⟨by rintro ⟨⟩, fun _ => ⟨_, rfl, fun _ => rfl, fun _ => rfl⟩⟩

/-- A closed queue gives the item that is left, and no more. -/
example :
    let h := runNew (β := Unit)
      [(call (Call.enqueue 5)).bind fun _ => (call .close).bind fun _ => .done (),
        (call (.dequeueNoWait 9)).bind fun _ => (call .tryDequeue).bind fun _ => .done ()]
      [.advance .longest 0, .advance .longest 0, .advance .longest 1, .advance .longest 1]
    h.trace.filterMap outcome? = [.ok 5, .error .queueClosed] := by rfl

end MessageIntake.Queue
