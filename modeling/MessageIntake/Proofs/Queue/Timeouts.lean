import MessageIntake.Proofs.Machine.StandIn
import MessageIntake.Proofs.Queue.Conservation

/-!
# The shortest and the longest timeouts

A call with a timeout waits in a loop of its own (`awaits`): until there is an
item, the queue is closed, or the deadline is reached. At both ends this is no
loop of its own. Without a deadline it ends when the loop of a dequeue does; with
a deadline that is reached at once it never sleeps. So at one end a dequeue with a
timeout is a dequeue, at the other it only tries (`timeouts_collapse`), and
nobody can tell, whatever the state of the queue and whatever other threads do.
-/

namespace MessageIntake

/-- Instants end at a bound, which the number that stands for one does not know. -/
def Instant.InRange (now : Instant) : Prop := now < Instant.bound

/-! ## Deadlines -/

namespace Timeout

variable {start later : Instant} {d : Duration}

theorem deadline_longest (start : Instant) : (ofDuration .longest).deadline start = none := rfl

/-- A duration that ends past the last instant has no deadline. -/
theorem deadline_of_overflow (h : Instant.bound ≤ start + d.nanos) :
    (ofDuration d).deadline start = none := by
  unfold ofDuration
  split
  · rfl
  · exact (deadline_eq_none_iff _ _).mpr (.inr ⟨d, rfl, h⟩)

/-- What has no deadline has none when it is started later. -/
theorem deadline_eq_none_of_le {t : Timeout} (h : t.deadline start = none) (hle : start ≤ later) :
    t.deadline later = none := by
  rcases (deadline_eq_none_iff t start).mp h with rfl | ⟨d, rfl, hd⟩
  · rfl
  · have hlater : Instant.bound ≤ later + d.nanos :=
      Nat.le_trans hd (Nat.add_le_add_right hle _)
    exact (deadline_eq_none_iff _ _).mpr (.inr ⟨d, rfl, hlater⟩)

theorem deadline_zero (h : Instant.InRange start) : zero.deadline start = some start :=
  deadline_after .zero start h

theorem ofDuration_zero : ofDuration .zero = zero := by decide

/-- A number of milliseconds elapses so many milliseconds later, if there is such
an instant. -/
theorem deadline_ofMillis_eq_some_iff (millis : Int64) (start deadline : Instant) :
    (ofMillis millis).deadline start = some deadline ↔
      deadline = start + millis.toInt.toNat * 1000000 ∧ Instant.InRange deadline := by
  have hdeadline : (ofMillis millis).deadline start =
      if start + millis.toInt.toNat * 1000000 < Instant.bound
      then some (start + millis.toInt.toNat * 1000000) else none := rfl
  rw [hdeadline]
  split
  · rename_i hlt
    constructor
    · rintro ⟨⟩
      exact ⟨rfl, hlt⟩
    · rintro ⟨rfl, -⟩
      rfl
  · rename_i hge
    refine iff_of_false nofun ?_
    rintro ⟨rfl, hlt⟩
    exact hge hlt

/-- More milliseconds elapse later. -/
theorem deadline_ofMillis_mono {millis more : Int64} (h : millis ≤ more) {deadline : Instant}
    (hmore : (ofMillis more).deadline start = some deadline) :
    ∃ earlier ≤ deadline, (ofMillis millis).deadline start = some earlier := by
  obtain ⟨rfl, hlt⟩ := (deadline_ofMillis_eq_some_iff more start deadline).mp hmore
  have hmillis : millis.toInt.toNat ≤ more.toInt.toNat :=
    Int.toNat_le_toNat (Int64.le_iff_toInt_le.mp h)
  have hle : start + millis.toInt.toNat * 1000000 ≤ start + more.toInt.toNat * 1000000 :=
    Nat.add_le_add_left (Nat.mul_le_mul_right _ hmillis) start
  have hbound : start + millis.toInt.toNat * 1000000 < Instant.bound := Nat.lt_of_le_of_lt hle hlt
  exact ⟨_, hle, (deadline_ofMillis_eq_some_iff millis start _).mpr ⟨rfl, hbound⟩⟩

end Timeout

namespace Queue

variable {α β γ : Type}

/-! ## The loop of a call with a timeout -/

/-- **Whether to wait on for an item**: until there is one, the queue is closed, or
the time is up. -/
def awaits (q : Queue α) (deadline : Option Instant) (now : Instant) : Turn Bool :=
  if q.items.isEmpty then
    if q.isOpen && !timeUp deadline now then .sleeps deadline else .returns false
  else .returns true

/-- The same, with another answer. -/
def Turn.map (f : β → γ) : Turn β → Turn γ
  | .returns answer => .returns (f answer)
  | .sleeps deadline => .sleeps deadline

def Pass.map (f : β → γ) (p : Pass α β) : Pass α γ := ⟨p.queue, p.wakes, p.turn.map f⟩

theorem Pass.served_map {I : Interface} {σ : Type} (f : β → γ) (p : Pass α β)
    (condition : Condition) (store : Queue α → σ) :
    (p.map f).served (I := I) condition store = (p.served condition store).map f := by
  obtain ⟨q, wakes, turn⟩ := p
  cases turn <;> rfl

variable {visit : Visit} {q : Queue α} {t : Timeout}

/-- **To wait for a message is this loop**, and nothing else. -/
theorem turn_waitForMessage (visit : Visit) (q : Queue α) (t : Timeout) :
    (q.pass visit (.waitForMessage t)).turn = q.awaits (t.deadline visit.started) visit.now := by
  obtain ⟨items, isOpen⟩ := q
  cases items with
  | cons item rest => rfl
  | nil => exact apply_ite Pass.turn _ _ _

/-- **To dequeue with a timeout is this loop, and then to try.** -/
theorem pass_dequeueTimeout (visit : Visit) (q : Queue α) (t : Timeout) :
    (∃ deadline, q.awaits (t.deadline visit.started) visit.now = .sleeps deadline ∧
        q.pass visit (.dequeueTimeout t) = ⟨q, .nobody, .sleeps deadline⟩) ∨
      ∃ found, q.awaits (t.deadline visit.started) visit.now = .returns found ∧
        q.pass visit (.dequeueTimeout t) = q.pass visit .tryDequeue := by
  obtain ⟨items, isOpen⟩ := q
  cases items with
  | cons item rest => exact .inr ⟨true, rfl, rfl⟩
  | nil =>
    cases isOpen with
    | false => exact .inr ⟨false, rfl, rfl⟩
    | true =>
      by_cases hup : timeUp (t.deadline visit.started) visit.now
      · exact .inr ⟨false, by simp [awaits, hup], by simp [pass, take, hup]⟩
      · refine .inl ⟨t.deadline visit.started, ?_, ?_⟩
        · simp [awaits, hup]
        · simp [pass, take, hup]

/-- **Without a deadline the loop is that of a dequeue.** -/
theorem turn_dequeue (visit : Visit) (q : Queue α) (now : Instant) :
    (q.pass visit .dequeue).turn.map Except.isOk = q.awaits none now := by
  obtain ⟨items, isOpen⟩ := q
  cases items with
  | cons item rest => rfl
  | nil => cases isOpen <;> rfl

/-- With a deadline that is reached there is no loop. -/
theorem awaits_of_reached {deadline now : Instant} (q : Queue α) (h : deadline ≤ now) :
    q.awaits (some deadline) now = .returns !q.items.isEmpty := by
  have hup : timeUp (some deadline) now = true := decide_eq_true h
  unfold awaits
  rw [hup]
  cases q.items.isEmpty <;> simp

/-- Where a dequeue has an answer, to try has the same. -/
theorem pass_tryDequeue_of_returns {answer : Result α}
    (h : (q.pass visit .dequeue).turn = .returns answer) :
    q.pass visit .tryDequeue = (q.pass visit .dequeue).map (Except.map some) := by
  obtain ⟨items, isOpen⟩ := q
  cases items with
  | cons item rest => rfl
  | nil =>
    cases isOpen with
    | false => rfl
    | true => cases h

/-- **Without a deadline, to dequeue with a timeout is to dequeue.** -/
theorem pass_dequeueTimeout_endless (h : t.deadline visit.started = none) (q : Queue α) :
    q.pass visit (.dequeueTimeout t) = (q.pass visit .dequeue).map (Except.map some) := by
  have hloop := turn_dequeue visit q visit.now
  rcases pass_dequeueTimeout visit q t with ⟨deadline, hawaits, hpass⟩ | ⟨found, hawaits, hpass⟩
  · rw [h, ← hloop] at hawaits
    rw [hpass]
    obtain ⟨items, isOpen⟩ := q
    cases items with
    | cons item rest => cases hawaits
    | nil =>
      cases isOpen with
      | false => cases hawaits
      | true =>
        cases hawaits
        rfl
  · rw [h, ← hloop] at hawaits
    rw [hpass]
    cases hturn : (q.pass visit .dequeue).turn with
    | returns answer => exact pass_tryDequeue_of_returns hturn
    | sleeps deadline =>
      rw [hturn] at hawaits
      cases hawaits

theorem pass_waitForMessage_endless (h : t.deadline visit.started = none) (q : Queue α) :
    q.pass visit (.waitForMessage t) = q.pass visit (.waitForMessage .infinite) := by
  obtain ⟨items, isOpen⟩ := q
  cases items <;> simp [pass, h]

/-- A visit that a timeout of zero does not outlast. -/
structure Prompt (visit : Visit) : Prop where
  inRange : Instant.InRange visit.started
  started_le : visit.started ≤ visit.now

/-- **With a timeout of zero, to dequeue is to try.** -/
theorem pass_dequeueTimeout_zero (h : Prompt visit) (q : Queue α) :
    q.pass visit (.dequeueTimeout .zero) = q.pass visit .tryDequeue := by
  rcases pass_dequeueTimeout visit q .zero with ⟨deadline, hawaits, -⟩ | ⟨found, -, hpass⟩
  · rw [Timeout.deadline_zero h.inRange, awaits_of_reached q h.started_le] at hawaits
    cases hawaits
  · exact hpass

/-- To wait for a message is then to look whether there is one. A thread that has
not slept hands no wakeup on. -/
theorem pass_waitForMessage_zero (h : Prompt visit) (hwaited : visit.waited = false)
    (q : Queue α) : q.pass visit (.waitForMessage .zero) =
      (q.pass visit .look).map fun looked => decide (0 < looked.1) := by
  have hup : timeUp (Timeout.zero.deadline visit.started) visit.now = true := by
    rw [Timeout.deadline_zero h.inRange]
    exact decide_eq_true h.started_le
  obtain ⟨items, isOpen⟩ := q
  cases items with
  | cons item rest => simp [pass, hwaited, Pass.map, Turn.map, length]
  | nil => simp [pass, hup, Pass.map, Turn.map, length]

theorem turn_tryDequeue (visit : Visit) (q : Queue α) :
    ∃ answer, (q.pass visit .tryDequeue).turn = .returns answer := by
  obtain ⟨items, isOpen⟩ := q
  cases items with
  | cons item rest => exact ⟨_, rfl⟩
  | nil => cases isOpen <;> exact ⟨_, rfl⟩

/-! ## What may be asked in place of a call with a timeout -/

/-- **A dequeue in place of one with a timeout**, as long as this has no
deadline. -/
def endless (t : Timeout) : StandIn (interface α) (Queue α) where
  request := Call.dequeueTimeout t
  other := Call.dequeue
  convert := Except.map some
  During now := t.deadline now = none
  Visits visit := t.deadline visit.started = none
  first h _ _ := h
  again h _ _ _ := h
  serve_eq q h := by
    have hpass := pass_dequeueTimeout_endless h q
    exact (congrArg (Pass.served · available id) hpass).trans (Pass.served_map _ _ _ _)

/-- A wait without end in place of one with a timeout. -/
def endlessWait (t : Timeout) : StandIn (interface α) (Queue α) where
  request := Call.waitForMessage t
  other := Call.waitForMessage .infinite
  convert := id
  During now := t.deadline now = none
  Visits visit := t.deadline visit.started = none
  first h _ _ := h
  again h _ _ _ := h
  serve_eq q h := by
    have hpass := pass_waitForMessage_endless h q
    exact (congrArg (Pass.served · available id) hpass).trans (Served.map_id _).symm

/-- **To try in place of a dequeue with a timeout of zero**, as long as time is
told. -/
def atOnce : StandIn (interface α) (Queue α) where
  request := Call.dequeueTimeout .zero
  other := Call.tryDequeue
  convert := id
  During := Instant.InRange
  Visits := Prompt
  first h hle _ := ⟨h, hle⟩
  again {visit q _ _ _} _ hserve := by
    obtain ⟨answer, hturn⟩ := turn_tryDequeue visit q
    have hanswers : Server.serve (I := interface α) visit q Call.tryDequeue = _ :=
      congrArg (fun turn => (⟨_, _, turn⟩ : Pass α _).served available id) hturn
    rw [hanswers] at hserve
    cases hserve
  serve_eq q h := by
    have hpass := pass_dequeueTimeout_zero h q
    exact (congrArg (Pass.served · available id) hpass).trans (Served.map_id _).symm

/-- To look in place of a wait with a timeout of zero. -/
def glance : StandIn (interface α) (Queue α) where
  request := Call.waitForMessage .zero
  other := Call.look
  convert looked := decide (0 < looked.1)
  During := Instant.InRange
  Visits visit := Prompt visit ∧ visit.waited = false
  first h hle _ := ⟨⟨h, hle⟩, rfl⟩
  again _ hserve := nomatch hserve
  serve_eq q h := by
    have hpass := pass_waitForMessage_zero h.1 h.2 q
    exact (congrArg (Pass.served · available id) hpass).trans (Pass.served_map _ _ _ _)

/-! ## Every run -/

section Runs

variable {m : Machine (interface α) (Queue α) γ} {i : Nat}

/-- Thread `i` makes a call and goes on with the answer; the queue and the other
threads are as they are. -/
def calling (m : Machine (interface α) (Queue α) γ) (i : Nat) (c : Call α)
    (next : c.Answer → Program (interface α) γ) : Machine (interface α) (Queue α) γ :=
  m.assign i ((call c).bind next)

theorem lockstep_endless (h : t.deadline m.clock = none)
    (next : Result (Option α) → Program (interface α) γ) :
    (calling m i (.dequeueTimeout t) next).Lockstep (History.StandsIn (endless t)) (fun _ => True)
      (calling m i .dequeue fun answer => next (answer.map some)) :=
  StandIn.lockstep_always ((endless t).start m i next) h fun _ _ hle hnow =>
    Timeout.deadline_eq_none_of_le hnow hle

theorem lockstep_endlessWait (h : t.deadline m.clock = none)
    (next : Bool → Program (interface α) γ) :
    (calling m i (.waitForMessage t) next).Lockstep (History.StandsIn (endlessWait t))
      (fun _ => True) (calling m i (.waitForMessage .infinite) next) :=
  StandIn.lockstep_always ((endlessWait t).start m i next) h fun _ _ hle hnow =>
    Timeout.deadline_eq_none_of_le hnow hle

theorem lockstep_atOnce (m : Machine (interface α) (Queue α) γ) (i : Nat)
    (next : Result (Option α) → Program (interface α) γ) :
    (calling m i (.dequeueTimeout .zero) next).Lockstep (History.StandsIn atOnce) Instant.InRange
      (calling m i .tryDequeue next) :=
  StandIn.lockstep_during (atOnce.start m i next) fun _ _ => Nat.lt_of_le_of_lt

theorem lockstep_glance (m : Machine (interface α) (Queue α) γ) (i : Nat)
    (next : Bool → Program (interface α) γ) :
    (calling m i (.waitForMessage .zero) next).Lockstep (History.StandsIn glance) Instant.InRange
      (calling m i .look fun looked => next (decide (0 < looked.1))) :=
  StandIn.lockstep_during (glance.start m i next) fun _ _ => Nat.lt_of_le_of_lt

variable {p : Program (interface α) γ} {schedule : List (Machine.Move (interface α) γ)}
  {before after : Queue α}

/-- What a thread does after it was given a new program are passes that it has asked
for since then. -/
theorem exists_pass {c : Call α} {answer : Option c.Answer}
    (h : (⟨i, before, c, answer, after⟩ : Event (interface α) (Queue α)) ∈
      ((m.assign i p).run schedule).trace) :
    ∃ visit, visit.Within m.clock ((m.assign i p).run schedule).machine.clock ∧
      (before.pass visit c).turn.answer? = answer := by
  obtain ⟨visit, hvisit, heq⟩ := Machine.exists_visit h rfl
  simp only [event_of, Event.mk.injEq, heq_eq_eq, true_and] at heq
  exact ⟨visit, hvisit, heq.1.symm⟩

/-- **Without a deadline no dequeue comes back because the time is up.** -/
theorem not_timedOut (h : t.deadline m.clock = none) :
    (⟨i, before, Call.dequeueTimeout t, some (.ok none), after⟩ : Event (interface α) (Queue α)) ∉
      ((m.assign i p).run schedule).trace := by
  intro hmem
  obtain ⟨visit, hvisit, hanswer⟩ := exists_pass hmem
  have hstarted : t.deadline visit.started = none :=
    Timeout.deadline_eq_none_of_le h hvisit.since_le
  rw [pass_dequeueTimeout_endless hstarted] at hanswer
  obtain ⟨items, isOpen⟩ := before
  cases items with
  | cons item rest => cases hanswer
  | nil => cases isOpen <;> cases hanswer

/-- Nor is a wait in vain, unless the queue is closed and has no item left. -/
theorem before_of_vain_wait (h : t.deadline m.clock = none)
    (hmem : (⟨i, before, Call.waitForMessage t, some false, after⟩ :
      Event (interface α) (Queue α)) ∈ ((m.assign i p).run schedule).trace) :
    before = ⟨[], false⟩ := by
  obtain ⟨visit, hvisit, hanswer⟩ := exists_pass hmem
  have hstarted : t.deadline visit.started = none :=
    Timeout.deadline_eq_none_of_le h hvisit.since_le
  rw [turn_waitForMessage, hstarted] at hanswer
  obtain ⟨items, isOpen⟩ := before
  cases items with
  | cons item rest => cases hanswer
  | nil =>
    cases isOpen with
    | false => rfl
    | true => cases hanswer

/-- A visit while the clock tells the time is one that a timeout of zero does not
outlast. -/
theorem prompt_of_within {since til : Instant} {visit : Visit} (h : visit.Within since til)
    (htil : Instant.InRange til) : Prompt visit where
  inRange := Nat.lt_of_le_of_lt (Nat.le_trans h.started_le h.le_til) htil
  started_le := h.started_le

/-- **With a timeout of zero no dequeue sleeps.** -/
theorem dequeue_not_asleep (hrange : Instant.InRange ((m.assign i p).run schedule).machine.clock) :
    (⟨i, before, Call.dequeueTimeout .zero, none, after⟩ : Event (interface α) (Queue α)) ∉
      ((m.assign i p).run schedule).trace := by
  intro hmem
  obtain ⟨visit, hvisit, hanswer⟩ := exists_pass hmem
  obtain ⟨answer, hturn⟩ := turn_tryDequeue visit before
  rw [pass_dequeueTimeout_zero (prompt_of_within hvisit hrange), hturn] at hanswer
  cases hanswer

/-- Nor does a wait. -/
theorem wait_not_asleep (hrange : Instant.InRange ((m.assign i p).run schedule).machine.clock) :
    (⟨i, before, Call.waitForMessage .zero, none, after⟩ : Event (interface α) (Queue α)) ∉
      ((m.assign i p).run schedule).trace := by
  intro hmem
  obtain ⟨visit, hvisit, hanswer⟩ := exists_pass hmem
  have hprompt := prompt_of_within hvisit hrange
  rw [turn_waitForMessage, Timeout.deadline_zero hprompt.inRange,
    awaits_of_reached before hprompt.started_le] at hanswer
  cases hanswer

end Runs

/-- **What it means that timeouts collapse to the calls without one.** -/
structure TimeoutsCollapse (α γ : Type) : Prop where
  /-- The infinite timeout has no deadline. -/
  infinite (start : Instant) : Timeout.infinite.deadline start = none
  /-- Nor has the longest duration. -/
  longest (start : Instant) : (Timeout.ofDuration .longest).deadline start = none
  /-- Nor has a duration that ends past the last instant. -/
  overflow {d : Duration} {start : Instant} :
    Instant.bound ≤ start + d.nanos → (Timeout.ofDuration d).deadline start = none
  /-- Without a deadline a dequeue with a timeout is a dequeue: the same sleeps, the
  same items and the same states, whatever the queue and the other threads. -/
  dequeues {t : Timeout} {m : Machine (interface α) (Queue α) γ} (i : Nat)
    (next : Result (Option α) → Program (interface α) γ) : t.deadline m.clock = none →
    (calling m i (.dequeueTimeout t) next).Lockstep (History.StandsIn (endless t)) (fun _ => True)
      (calling m i .dequeue fun answer => next (answer.map some))
  /-- Without a deadline no dequeue of a thread times out, whatever it does
  besides. -/
  never_timesOut {t : Timeout} {m : Machine (interface α) (Queue α) γ} (i : Nat)
    (p : Program (interface α) γ) (schedule : List (Machine.Move (interface α) γ))
    (before after : Queue α) : t.deadline m.clock = none →
    (⟨i, before, Call.dequeueTimeout t, some (.ok none), after⟩ :
      Event (interface α) (Queue α)) ∉ ((m.assign i p).run schedule).trace
  /-- Without a deadline to wait is to wait without end. -/
  waits {t : Timeout} {m : Machine (interface α) (Queue α) γ} (i : Nat)
    (next : Bool → Program (interface α) γ) : t.deadline m.clock = none →
    (calling m i (.waitForMessage t) next).Lockstep (History.StandsIn (endlessWait t))
      (fun _ => True) (calling m i (.waitForMessage .infinite) next)
  /-- Such a wait sleeps where a dequeue sleeps, and says whether that would have
  taken an item. -/
  waits_like_dequeue {t : Timeout} {visit : Visit} (q : Queue α) :
    t.deadline visit.started = none →
    (q.pass visit (.waitForMessage t)).turn = (q.pass visit .dequeue).turn.map Except.isOk
  /-- Such a wait is in vain only if the queue is closed and has no item left. -/
  never_vain {t : Timeout} {m : Machine (interface α) (Queue α) γ} {i : Nat}
    {p : Program (interface α) γ} {schedule : List (Machine.Move (interface α) γ)}
    {before after : Queue α} : t.deadline m.clock = none →
    (⟨i, before, Call.waitForMessage t, some false, after⟩ :
      Event (interface α) (Queue α)) ∈ ((m.assign i p).run schedule).trace →
    before = ⟨[], false⟩
  /-- A number of milliseconds that is not positive is a timeout of zero. -/
  nonpositive {millis : Int64} : millis ≤ 0 → Timeout.ofMillis millis = .zero
  /-- So is a duration of zero. -/
  zero : Timeout.ofDuration .zero = .zero
  /-- With a timeout of zero to dequeue is to try, whatever the queue and the other
  threads. -/
  tries (m : Machine (interface α) (Queue α) γ) (i : Nat)
    (next : Result (Option α) → Program (interface α) γ) :
    (calling m i (.dequeueTimeout .zero) next).Lockstep (History.StandsIn atOnce) Instant.InRange
      (calling m i .tryDequeue next)
  /-- With a timeout of zero no dequeue of a thread sleeps, whatever it does
  besides. -/
  never_sleeps {m : Machine (interface α) (Queue α) γ} {i : Nat} {p : Program (interface α) γ}
    {schedule : List (Machine.Move (interface α) γ)} (before after : Queue α) :
    Instant.InRange ((m.assign i p).run schedule).machine.clock →
    (⟨i, before, Call.dequeueTimeout .zero, none, after⟩ : Event (interface α) (Queue α)) ∉
      ((m.assign i p).run schedule).trace
  /-- With a timeout of zero to wait is to look whether there is an item. -/
  looks (m : Machine (interface α) (Queue α) γ) (i : Nat)
    (next : Bool → Program (interface α) γ) :
    (calling m i (.waitForMessage .zero) next).Lockstep (History.StandsIn glance) Instant.InRange
      (calling m i .look fun looked => next (decide (0 < looked.1)))
  /-- Nor does a wait sleep with a timeout of zero. -/
  wait_never_sleeps {m : Machine (interface α) (Queue α) γ} {i : Nat}
    {p : Program (interface α) γ} {schedule : List (Machine.Move (interface α) γ)}
    (before after : Queue α) : Instant.InRange ((m.assign i p).run schedule).machine.clock →
    (⟨i, before, Call.waitForMessage .zero, none, after⟩ : Event (interface α) (Queue α)) ∉
      ((m.assign i p).run schedule).trace
  /-- A positive number of milliseconds has a deadline if there is an instant so many
  milliseconds later, and it is this instant. -/
  millis {millis : Int64} (start deadline : Instant) : 0 < millis →
    ((Timeout.ofMillis millis).deadline start = some deadline ↔
      deadline = start + millis.toInt.toNat * 1000000 ∧ Instant.InRange deadline)
  /-- More milliseconds elapse no earlier. -/
  mono {millis more : Int64} {start deadline : Instant} : millis ≤ more →
    (Timeout.ofMillis more).deadline start = some deadline →
    ∃ earlier ≤ deadline, (Timeout.ofMillis millis).deadline start = some earlier

/-- **Timeouts collapse to the calls without one**, at both ends. -/
theorem timeouts_collapse (α γ : Type) : TimeoutsCollapse α γ where
  infinite := Timeout.deadline_infinite
  longest := Timeout.deadline_longest
  overflow := Timeout.deadline_of_overflow
  dequeues _ next h := lockstep_endless h next
  never_timesOut _ _ _ _ _ h := not_timedOut h
  waits _ next h := lockstep_endlessWait h next
  waits_like_dequeue q h := by rw [turn_waitForMessage, h, turn_dequeue]
  never_vain := before_of_vain_wait
  nonpositive h := Timeout.ofMillis_of_nonpos _ (Int64.le_iff_toInt_le.mp h)
  zero := Timeout.ofDuration_zero
  tries := lockstep_atOnce
  never_sleeps _ _ h := dequeue_not_asleep h
  looks := lockstep_glance
  wait_never_sleeps _ _ h := wait_not_asleep h
  millis start deadline _ := Timeout.deadline_ofMillis_eq_some_iff _ start deadline
  mono h hmore := Timeout.deadline_ofMillis_mono h hmore

end Queue

end MessageIntake
