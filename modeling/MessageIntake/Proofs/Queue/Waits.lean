import MessageIntake.Proofs.Machine.Parting
import MessageIntake.Proofs.Queue.Timeouts

/-!
# What a timed wait decides by

A wait for a message and a dequeue with a timeout go through the same loop. What
ends it is looked at three times, item, closure and time, and the dequeue looks once
more when it takes; all of it is one pass through the lock, so both decide by the
queue as it is then (`Decides`). The two are therefore waited for alike
(`timedWait`): under any schedule a thread may wait with either, both are answered at
the same move, and the answer to the one tells the answer to the other
(`timed_waits_agree`).
-/

namespace MessageIntake.Queue

variable {α β γ : Type}

/-! ## One pass -/

/-- The deadline of a call has come. -/
def Passed (t : Timeout) (visit : Visit) : Prop :=
  ∃ deadline, t.deadline visit.started = some deadline ∧ deadline ≤ visit.now

theorem timeUp_iff {t : Timeout} {visit : Visit} :
    timeUp (t.deadline visit.started) visit.now = true ↔ Passed t visit := by
  unfold timeUp Passed
  cases t.deadline visit.started <;> simp

/-- **What a wait and a dequeue with the same timeout answer, and what they leave.** An
item comes before closure, and closure before the time. -/
inductive Decides (t : Timeout) (visit : Visit) :
    Queue α → Bool × Queue α → Result (Option α) × Queue α → Prop
  | found (item : α) (rest : List α) (isOpen : Bool) :
    Decides t visit ⟨item :: rest, isOpen⟩ (true, ⟨item :: rest, isOpen⟩)
      (.ok (some item), ⟨rest, isOpen⟩)
  | closed : Decides t visit ⟨[], false⟩ (false, ⟨[], false⟩) (.error .queueClosed, ⟨[], false⟩)
  | timedOut : Passed t visit → Decides t visit ⟨[], true⟩ (false, ⟨[], true⟩) (.ok none, ⟨[], true⟩)

/-- **One pass of each**: both sleep on an open queue without an item, before the
deadline, or both decide. -/
theorem timed_cases (t : Timeout) (visit : Visit) (q : Queue α) :
    (q = ⟨[], true⟩ ∧ ¬ Passed t visit ∧
        q.pass visit (.waitForMessage t) = ⟨q, .nobody, .sleeps (t.deadline visit.started)⟩ ∧
        q.pass visit (.dequeueTimeout t) = ⟨q, .nobody, .sleeps (t.deadline visit.started)⟩) ∨
      ∃ wakes found taken q', Decides t visit q (found, q) (taken, q') ∧
        q.pass visit (.waitForMessage t) = ⟨q, wakes, .returns found⟩ ∧
        q.pass visit (.dequeueTimeout t) = ⟨q', .nobody, .returns taken⟩ := by
  obtain ⟨items, isOpen⟩ := q
  cases items with
  | cons item rest => exact .inr ⟨_, true, _, _, .found item rest isOpen, rfl, rfl⟩
  | nil =>
    cases isOpen with
    | false => exact .inr ⟨.nobody, false, _, _, .closed, by simp [pass], rfl⟩
    | true =>
      by_cases hpassed : Passed t visit
      · have hup := timeUp_iff.mpr hpassed
        exact .inr ⟨.nobody, false, .ok none, _, .timedOut hpassed, by simp [pass, hup],
          by simp [pass, take, hup]⟩
      · have hup : timeUp (t.deadline visit.started) visit.now = false :=
          Bool.eq_false_iff.mpr fun h => hpassed (timeUp_iff.mp h)
        exact .inl ⟨rfl, hpassed, by simp [pass, hup], by simp [pass, take, hup]⟩

/-- **A wait and a dequeue with the same timeout are waited for alike.** -/
def timedWait (t : Timeout) : Parting (interface α) (Queue α) where
  left := Call.waitForMessage t
  right := Call.dequeueTimeout t
  Decision := Decides t
  serve_cases visit q := by
    have hserve (c : Call α) : Server.serve (I := interface α) visit q c =
        (q.pass visit c).served available id := rfl
    rw [hserve, hserve]
    rcases timed_cases t visit q with ⟨-, -, hwait, hdequeue⟩ |
      ⟨wakes, found, taken, q', hdecides, hwait, hdequeue⟩
    · rw [hwait, hdequeue]
      exact .inl ⟨_, _, _, rfl, rfl⟩
    · rw [hwait, hdequeue]
      exact .inr ⟨_, _, _, _, _, _, rfl, rfl, hdecides⟩

section Pass

variable {t : Timeout} {visit : Visit} {q : Queue α}

/-- A dequeue takes where a wait finds an item, and takes the first. -/
theorem turn_found_iff {item : α} :
    (q.pass visit (.dequeueTimeout t)).turn = .returns (.ok (some item)) ↔
      (q.pass visit (.waitForMessage t)).turn = .returns true ∧ q.items.head? = some item := by
  rcases timed_cases t visit q with ⟨rfl, -, hwait, hdequeue⟩ |
    ⟨wakes, found, taken, q', hdecides, hwait, hdequeue⟩ <;> rw [hwait, hdequeue]
  · exact iff_of_false nofun nofun
  · cases hdecides <;> simp

theorem turn_closed_iff :
    (q.pass visit (.dequeueTimeout t)).turn = .returns (.error .queueClosed) ↔
      (q.pass visit (.waitForMessage t)).turn = .returns false ∧ q.isOpen = false := by
  rcases timed_cases t visit q with ⟨rfl, -, hwait, hdequeue⟩ |
    ⟨wakes, found, taken, q', hdecides, hwait, hdequeue⟩ <;> rw [hwait, hdequeue]
  · exact iff_of_false nofun nofun
  · cases hdecides <;> simp

theorem turn_timedOut_iff :
    (q.pass visit (.dequeueTimeout t)).turn = .returns (.ok none) ↔
      (q.pass visit (.waitForMessage t)).turn = .returns false ∧ q.isOpen = true := by
  rcases timed_cases t visit q with ⟨rfl, -, hwait, hdequeue⟩ |
    ⟨wakes, found, taken, q', hdecides, hwait, hdequeue⟩ <;> rw [hwait, hdequeue]
  · exact iff_of_false nofun nofun
  · cases hdecides <;> simp

end Pass

/-! ## Every run -/

section Runs

variable {m : Machine (interface α) (Queue α) γ} {i : Nat} {t : Timeout} {visit : Visit}
  {schedule : List (Machine.Move (interface α) γ)} {before after : Queue α}

/-- The event of a thread that asks. -/
theorem event?_of_asks {c : Call α} (h : m.asks? i = some (visit, c)) :
    m.event? i = some ⟨i, m.shared, c, (m.shared.pass visit c).turn.answer?,
      (m.shared.pass visit c).queue⟩ := by
  rw [Machine.event?, h, ← event_of]
  rfl

/-- A wait leaves the queue as it was. -/
theorem after_of_wait {answer : Option Bool}
    (h : (⟨i, before, Call.waitForMessage t, answer, after⟩ : Event (interface α) (Queue α)) ∈
      (m.run schedule).trace) : after = before := by
  obtain ⟨visit, he⟩ := Machine.exists_of_mem_trace h
  simp only [event_of, Event.mk.injEq, heq_eq_eq, true_and] at he
  rcases timed_cases t visit before with ⟨-, -, hwait, -⟩ | ⟨wakes, found, taken, q', -, hwait, -⟩ <;>
    rw [he.2, hwait]

/-- A wait that ends finds what it says. -/
theorem decides_of_wait {found : Bool}
    (h : (before.pass visit (.waitForMessage t)).turn.answer? = some found) :
    ∃ answered, Decides t visit before (found, before) answered := by
  rcases timed_cases t visit before with ⟨-, -, hwait, -⟩ |
    ⟨wakes, found', taken, q', hdecides, hwait, -⟩
  · rw [hwait] at h
    cases h
  · rw [hwait] at h
    cases h
    exact ⟨_, hdecides⟩

/-- **A wait says that there is an item only if there is one.** -/
theorem items_ne_nil_of_wait
    (h : (⟨i, before, Call.waitForMessage t, some true, after⟩ :
      Event (interface α) (Queue α)) ∈ (m.run schedule).trace) : before.items ≠ [] := by
  obtain ⟨visit, he⟩ := Machine.exists_of_mem_trace h
  simp only [event_of, Event.mk.injEq, heq_eq_eq, true_and] at he
  obtain ⟨answered, hdecides⟩ := decides_of_wait he.1.symm
  cases hdecides
  exact List.cons_ne_nil _ _

/-- **A wait is in vain only if there is no item**, and the queue is closed or the
deadline has passed, counted from when the wait was called. -/
theorem exists_awaits_of_vain_wait (hm : m.Fresh)
    (h : (⟨i, before, Call.waitForMessage t, some false, after⟩ :
      Event (interface α) (Queue α)) ∈ (m.run schedule).trace) :
    ∃ first rest waker later, schedule = first ++ rest ++ .advance waker i :: later ∧
      m.Awaits i (Call.waitForMessage t) first rest ∧
      before = (m.run (first ++ rest)).machine.shared ∧ before.items = [] ∧
      (before.isOpen = false ∨
        ∃ deadline, t.deadline (m.run first).machine.clock = some deadline ∧
          deadline ≤ (m.run (first ++ rest)).machine.clock) := by
  -- the deadline counts from when the wait was called, and the last pass decides
  obtain ⟨earlier, waker, later, visit, rfl, hasks, he⟩ := Machine.exists_asks_of_mem h
  obtain ⟨first, rest, rfl, hawaits, hstarted⟩ := Machine.exists_awaits hm hasks
  simp only [event_of, Event.mk.injEq, heq_eq_eq, true_and] at he
  obtain ⟨rfl, hanswer, -⟩ := he
  refine ⟨first, rest, waker, later, rfl, hawaits, rfl, ?_⟩
  obtain ⟨answered, hdecides⟩ := decides_of_wait hanswer.symm
  generalize (m.run (first ++ rest)).machine.shared = q at hdecides
  cases hdecides with
  | closed => exact ⟨rfl, .inl rfl⟩
  | timedOut hpassed =>
    obtain ⟨deadline, hdeadline, hle⟩ := hpassed
    rw [hstarted] at hdeadline
    rw [Machine.now_of_asks? hasks] at hle
    exact ⟨rfl, .inr ⟨deadline, hdeadline, hle⟩⟩

/-- Whoever waits might dequeue, at the start of either. -/
theorem calling_parts (hi : i < m.threads.length) (next : Bool → Program (interface α) γ)
    (next' : Result (Option α) → Program (interface α) γ) :
    (calling m i (.waitForMessage t) next).Parts (timedWait t) i next next'
      (calling m i (.dequeueTimeout t) next') := by
  refine ⟨rfl, rfl, rfl, _, _, .running, List.getElem?_set_self hi, ?_⟩
  dsimp only [calling, Machine.assign]
  rw [List.set_set]
  rfl

end Runs

/-- **What it means that timed waits agree**, and answer by the queue as it is when they
end. -/
structure TimedWaitsAgree (α γ : Type) : Prop where
  /-- A wait says that there is an item only if there is one when it says so. -/
  finds {m : Machine (interface α) (Queue α) γ} {schedule : List (Machine.Move (interface α) γ)}
    {i : Nat} {t : Timeout} {before after : Queue α} :
    (⟨i, before, Call.waitForMessage t, some true, after⟩ : Event (interface α) (Queue α)) ∈
      (m.run schedule).trace → before.items ≠ []
  /-- It says that there is none only if there is none then, and the queue is closed or
  the deadline has passed, counted from when this wait was called, be it before the lock was
  free. -/
  in_vain {m : Machine (interface α) (Queue α) γ} {schedule : List (Machine.Move (interface α) γ)}
    {i : Nat} {t : Timeout} {before after : Queue α} : m.Fresh →
    (⟨i, before, Call.waitForMessage t, some false, after⟩ : Event (interface α) (Queue α)) ∈
      (m.run schedule).trace →
    ∃ first rest waker later, schedule = first ++ rest ++ .advance waker i :: later ∧
      m.Awaits i (Call.waitForMessage t) first rest ∧
      before = (m.run (first ++ rest)).machine.shared ∧ before.items = [] ∧
      (before.isOpen = false ∨
        ∃ deadline, t.deadline (m.run first).machine.clock = some deadline ∧
          deadline ≤ (m.run (first ++ rest)).machine.clock)
  /-- No pass of a wait changes the queue. -/
  untouched {m : Machine (interface α) (Queue α) γ} {schedule : List (Machine.Move (interface α) γ)}
    {i : Nat} {t : Timeout} {before after : Queue α} {answer : Option Bool} :
    (⟨i, before, Call.waitForMessage t, answer, after⟩ : Event (interface α) (Queue α)) ∈
      (m.run schedule).trace → after = before
  /-- **Every schedule with the wait is one with the dequeue in its place**: the two runs
  differ in that thread only until it is answered, at the same move of both, and its
  answers are those that `Decides` puts side by side. It may be at any stage of its call. -/
  waits_as_dequeues {m m' : Machine (interface α) (Queue α) γ} {i : Nat} {t : Timeout}
    {next : Bool → Program (interface α) γ}
    {next' : Result (Option α) → Program (interface α) γ} :
    m.Parts (timedWait t) i next next' m' →
    ∃ translate : List (Machine.Move (interface α) γ) → List (Machine.Move (interface α) γ),
      InStep translate ∧ ∀ schedule,
        List.Forall₂ Machine.Move.Same schedule (translate schedule) ∧
          Machine.Course (timedWait t) i next next' m m' schedule (translate schedule)
  /-- And every schedule with the dequeue is one with the wait. -/
  dequeues_as_waits {m m' : Machine (interface α) (Queue α) γ} {i : Nat} {t : Timeout}
    {next : Bool → Program (interface α) γ}
    {next' : Result (Option α) → Program (interface α) γ} :
    m.Parts (timedWait t) i next next' m' →
    ∃ translate : List (Machine.Move (interface α) γ) → List (Machine.Move (interface α) γ),
      InStep translate ∧ ∀ schedule',
        List.Forall₂ Machine.Move.Same schedule' (translate schedule') ∧
          Machine.Course (timedWait t).symm i next' next m' m schedule' (translate schedule')
  /-- Among these are the runs in which the call has yet to be made, with the queue and
  the other threads as they may be. -/
  calling {m : Machine (interface α) (Queue α) γ} {i : Nat} {t : Timeout}
    (next : Bool → Program (interface α) γ)
    (next' : Result (Option α) → Program (interface α) γ) : i < m.threads.length →
    (calling m i (.waitForMessage t) next).Parts (timedWait t) i next next'
      (calling m i (.dequeueTimeout t) next')
  /-- A dequeue takes the first item exactly where a wait says that there is one. -/
  takes_iff {t : Timeout} {visit : Visit} {q : Queue α} {item : α} :
    (q.pass visit (.dequeueTimeout t)).turn = .returns (.ok (some item)) ↔
      (q.pass visit (.waitForMessage t)).turn = .returns true ∧ q.items.head? = some item
  /-- It fails exactly where a wait is in vain on a closed queue. -/
  fails_iff {t : Timeout} {visit : Visit} {q : Queue α} :
    (q.pass visit (.dequeueTimeout t)).turn = .returns (.error .queueClosed) ↔
      (q.pass visit (.waitForMessage t)).turn = .returns false ∧ q.isOpen = false
  /-- It comes back with nothing exactly where a wait is in vain on an open one. -/
  times_out_iff {t : Timeout} {visit : Visit} {q : Queue α} :
    (q.pass visit (.dequeueTimeout t)).turn = .returns (.ok none) ↔
      (q.pass visit (.waitForMessage t)).turn = .returns false ∧ q.isOpen = true
  /-- **An item that is there when the thread resumes is taken**, whatever the time. -/
  late {m : Machine (interface α) (Queue α) γ} {i : Nat} {t : Timeout} {visit : Visit} {item : α}
    {rest : List α} : m.asks? i = some (visit, Call.dequeueTimeout t) →
    m.shared.items = item :: rest →
    m.event? i = some ⟨i, m.shared, Call.dequeueTimeout t, some (.ok (some item)),
      ⟨rest, m.shared.isOpen⟩⟩
  /-- **Closure is told rather than that the time is up.** -/
  closure {m : Machine (interface α) (Queue α) γ} {i : Nat} {t : Timeout} {visit : Visit} :
    m.asks? i = some (visit, Call.dequeueTimeout t) → m.shared = ⟨[], false⟩ →
    m.event? i = some ⟨i, m.shared, Call.dequeueTimeout t, some (.error .queueClosed), m.shared⟩

/-- **Timed waits agree**, and answer by the queue as it is when they end. -/
theorem timed_waits_agree (α γ : Type) : TimedWaitsAgree α γ where
  finds := items_ne_nil_of_wait
  in_vain := exists_awaits_of_vain_wait
  untouched := after_of_wait
  waits_as_dequeues h := h.exists_course
  dequeues_as_waits h := h.symm.exists_course
  calling next next' hi := calling_parts hi next next'
  takes_iff := turn_found_iff
  fails_iff := turn_closed_iff
  times_out_iff := turn_timedOut_iff
  late h hitems := by
    rw [event?_of_asks h]
    simp [pass, take, hitems, Turn.answer?]
  closure h hclosed := by
    rw [event?_of_asks h, hclosed]
    rfl

end MessageIntake.Queue
