import MessageIntake.Proofs.Queue.Conservation

/-!
# No wakeup is lost

An item wakes one sleeper, and that one need not take it: it may only
watch, its time may be up, or another thread may be faster. What keeps a
reader from sleeping beside a buffered item is a count. While somebody
sleeps, at least as many threads are woken and not yet back as items are
buffered (`Watched.covered`); and on a closed queue nobody sleeps.

`pass_signals` is what the count needs to know about a pass: what it
adds to the buffer it pays for with a signal, and a woken caller that
goes without a signal has taken an item or found none.
-/

namespace MessageIntake

variable {I : Interface} {α β : Type}

namespace Phase

/-- Whether a thread was woken and is not back yet. -/
def isWoken : Phase I α → Bool
  | .asking _ _ _ waited => waited
  | _ => false

theorem isAsleep_of_ticket? {c : Condition} {phase : Phase I α} (h : (phase.ticket? c).isSome) :
    phase.isAsleep := by
  cases phase <;> simp_all [ticket?, isAsleep]

theorem isAsleep_wake (phase : Phase I α) : phase.wake.isAsleep = false := by
  cases phase <;> rfl

theorem isWoken_wake {phase : Phase I α} (h : phase.isAsleep) : phase.wake.isWoken := by
  cases phase <;> simp_all [isAsleep, wake, isWoken]

/-- A thread that moves does not sleep, and it was woken if it has
slept. -/
theorem Asks.isWoken_eq {now : Instant} {phase : Phase I α} {visit : Visit} {r : I.Request}
    {next : I.Answer r → Program I α} (h : phase.Asks now visit r next) :
    phase.isAsleep = false ∧ phase.isWoken = visit.waited := by
  cases h <;> exact ⟨rfl, rfl⟩

end Phase

/-- How many threads sleep. -/
def asleep (threads : List (Phase I α)) : Nat := threads.countP Phase.isAsleep

/-- How many threads are woken and not back yet. -/
def woken (threads : List (Phase I α)) : Nat := threads.countP Phase.isWoken

/-- A count after one element is replaced. -/
theorem countP_set_add {p : α → Bool} {l : List α} {i : Nat} {a : α} (b : α)
    (h : l[i]? = some a) : (l.set i b).countP p + (p a).toNat = l.countP p + (p b).toNat := by
  obtain ⟨hlt, rfl⟩ := List.getElem?_eq_some_iff.mp h
  rw [List.countP_set hlt]
  by_cases hp : p l[i]
  · have hpos : 0 < l.countP p := List.countP_pos_iff.mpr ⟨_, List.getElem_mem hlt, hp⟩
    cases hb : p b <;> simp [hp] <;> omega
  · cases hb : p b <;> simp [hp]

namespace Machine

/-- The end of a sleep makes a sleeper a woken thread and changes no
other. -/
theorem count_modify_wake {threads : List (Phase I α)} {i : Nat} {phase : Phase I α}
    (hi : threads[i]? = some phase) (h : phase.isAsleep) :
    asleep (threads.modify i Phase.wake) + 1 = asleep threads ∧
      woken (threads.modify i Phase.wake) = woken threads + 1 := by
  have hasleep := countP_set_add (p := Phase.isAsleep) phase.wake hi
  have hwoken := countP_set_add (p := Phase.isWoken) phase.wake hi
  have hnot : phase.isWoken = false := by cases phase <;> simp_all [Phase.isAsleep, Phase.isWoken]
  simp only [h, hnot, Phase.isAsleep_wake, Phase.isWoken_wake h, Bool.toNat_true,
    Bool.toNat_false] at hasleep hwoken
  rw [modify_eq_set hi, asleep, asleep, woken, woken]
  omega

/-- A thread that makes its request was not asleep and has not been woken. -/
theorem count_set_asking {threads : List (Phase I α)} {i : Nat} {r : I.Request}
    {next : I.Answer r → Program I α} (hi : threads[i]? = some (.running (.ask r next)))
    (started : Instant) :
    asleep (threads.set i (.asking r next started false)) = asleep threads ∧
      woken (threads.set i (.asking r next started false)) = woken threads :=
  ⟨countP_set_add (p := Phase.isAsleep) _ hi, countP_set_add (p := Phase.isWoken) _ hi⟩

/-- What a signal leaves of a thread that does not sleep. -/
theorem getElem?_deliver (choose : Chooser I α) (signal : Signal) {threads : List (Phase I α)}
    {i : Nat} {phase : Phase I α} (hi : threads[i]? = some phase) (h : phase.isAsleep = false) :
    (deliver choose signal threads)[i]? = some phase := by
  have hwake : phase.wake = phase := by cases phase <;> simp_all [Phase.isAsleep, Phase.wake]
  cases signal with
  | nobody => exact hi
  | one c =>
    simp only [deliver]
    split
    · exact hi
    · simp only [List.getElem?_modify, hi]
      split <;> simp [hwake]
  | all c => simp [deliver, hi, hwake]

/-- A thread that goes on is no longer counted as woken. -/
theorem count_set_running {threads : List (Phase I α)} {i : Nat} {phase : Phase I α}
    {now : Instant} {visit : Visit} {r : I.Request} {next : I.Answer r → Program I α}
    (hi : threads[i]? = some phase) (hasks : phase.Asks now visit r next) (p : Program I α) :
    asleep (threads.set i (.running p)) = asleep threads ∧
      woken (threads.set i (.running p)) + visit.waited.toNat = woken threads := by
  have hasleep := countP_set_add (p := Phase.isAsleep) (.running p) hi
  have hwoken := countP_set_add (p := Phase.isWoken) (.running p) hi
  rw [hasks.isWoken_eq.1] at hasleep
  rw [hasks.isWoken_eq.2] at hwoken
  exact ⟨hasleep, hwoken⟩

end Machine

namespace Queue

/-! ## What a pass owes to the sleepers -/

/-- Whether a call may have to wait. -/
def Call.mayWait : Call α → Bool
  | .dequeue | .dequeueTimeout _ | .waitForMessage _ => true
  | .enqueue _ | .tryDequeue | .dequeueNoWait _ | .close | .look => false

/-- What a pass that leaves the queue `q'` behind owes to the sleepers,
when its caller was woken (`waited`) or not. -/
def Pass.Pays (waited : Bool) (q q' : Queue α) : Wakes → Prop
  | .nobody => q'.isOpen = q.isOpen ∧
      (q'.items = [] ∨ q'.items.length + waited.toNat ≤ q.items.length)
  | .one => q'.isOpen = q.isOpen ∧ q'.items.length + waited.toNat ≤ q.items.length + 1
  | .all => q'.isOpen = false

/-- **What a pass owes it pays.** It sleeps only on an open queue without
items. When it returns, it has closed the queue and wakes all; or it
wakes one, for an item that it added or that it was woken for and leaves
there; or it wakes nobody, and then a woken caller has taken an item or
found none. -/
theorem pass_signals (visit : Visit) (q : Queue α) (c : Call α)
    (h : visit.waited → c.mayWait) :
    match (q.pass visit c).turn with
    | .sleeps _ => (q.pass visit c).queue = q ∧ q.items = [] ∧ q.isOpen ∧ c.mayWait
    | .returns _ => Pass.Pays visit.waited q (q.pass visit c).queue (q.pass visit c).wakes := by
  obtain ⟨items, isOpen⟩ := q
  obtain ⟨started, now, waited⟩ := visit
  -- the clock counts for the two calls with a timeout only
  cases c with
  | enqueue item =>
    cases waited <;> cases isOpen <;> simp_all [pass, Pass.Pays, Call.mayWait]
  | dequeue =>
    cases waited <;> cases items <;> cases isOpen <;>
      simp [pass, take, Pass.Pays, Call.mayWait]
  | tryDequeue | dequeueNoWait default =>
    cases waited <;> cases items <;> cases isOpen <;>
      simp_all [pass, take, Pass.Pays, Call.mayWait]
  | dequeueTimeout timeout | waitForMessage timeout =>
    by_cases hup : timeUp (timeout.deadline started) now <;>
      cases waited <;> cases items <;> cases isOpen <;>
      simp [pass, take, hup, Pass.Pays, Call.mayWait]
  | close => cases waited <;> cases isOpen <;> simp_all [pass, Pass.Pays, Call.mayWait]
  | look => cases waited <;> simp_all [pass, Pass.Pays, Call.mayWait]

/-! ## The count -/

/-- A thread that sleeps or was woken is a caller that may have to wait,
and it sleeps on the condition of the queue. -/
def Waits : Phase (interface α) β → Prop
  | .asking c _ _ waited => waited → Call.mayWait c
  | .asleep c _ _ condition _ _ => Call.mayWait c ∧ condition = available
  | .running _ => True

theorem Waits.wake {phase : Phase (interface α) β} (h : Waits phase) : Waits phase.wake := by
  cases phase with
  | asleep => exact fun _ => h.1
  | running | asking => exact h

theorem Waits.ticket? {phase : Phase (interface α) β} (h : Waits phase) (hsleep : phase.isAsleep) :
    (phase.ticket? available).isSome := by
  cases phase with
  | asleep => simp [Phase.ticket?, h.2]
  | running | asking => simp [Phase.isAsleep] at hsleep

theorem waits_deliver (choose : Machine.Chooser (interface α) β) (signal : Signal)
    {threads : List (Phase (interface α) β)} (h : ∀ phase ∈ threads, Waits phase) :
    ∀ phase ∈ Machine.deliver choose signal threads, Waits phase := by
  intro phase hmem
  cases signal with
  | nobody => exact h phase hmem
  | one c =>
    simp only [Machine.deliver] at hmem
    split at hmem
    · exact h phase hmem
    · obtain ⟨j, hj⟩ := List.getElem?_of_mem hmem
      rw [List.getElem?_modify, Option.map_eq_map, Option.map_eq_some_iff] at hj
      obtain ⟨old, hold, rfl⟩ := hj
      split
      · exact (h old (List.mem_of_getElem? hold)).wake
      · exact h old (List.mem_of_getElem? hold)
  | all c =>
    obtain ⟨old, hold, rfl⟩ := List.mem_map.mp hmem
    split
    · exact (h old hold).wake
    · exact h old hold

/-- A signal to one reaches a sleeper if there is one. -/
theorem count_deliver_one (waker : Machine.Waker (interface α) β)
    {threads : List (Phase (interface α) β)} (h : ∀ phase ∈ threads, Waits phase) :
    let signalled := Machine.deliver waker.choose (.one available) threads
    (asleep threads = 0 ∧ asleep signalled = 0) ∨
      (asleep signalled + 1 = asleep threads ∧ woken signalled = woken threads + 1) := by
  simp only [Machine.deliver]
  split
  · rename_i hnone
    have hall : asleep threads = 0 := by
      refine List.countP_eq_zero.mpr fun phase hmem hsleep => ?_
      simpa [waker.finds_any hnone phase hmem] using (h phase hmem).ticket? hsleep
    exact .inl ⟨hall, hall⟩
  · rename_i j hsome
    obtain ⟨phase, hj, hticket⟩ := waker.finds_sleeper hsome
    exact .inr (Machine.count_modify_wake hj (Phase.isAsleep_of_ticket? hticket))

/-- A signal to all leaves nobody asleep. -/
theorem asleep_deliver_all (choose : Machine.Chooser (interface α) β)
    {threads : List (Phase (interface α) β)} (h : ∀ phase ∈ threads, Waits phase) :
    asleep (Machine.deliver choose (.all available) threads) = 0 := by
  refine List.countP_eq_zero.mpr fun phase hmem hsleep => ?_
  obtain ⟨old, hold, rfl⟩ := List.mem_map.mp hmem
  split at hsleep
  · simp [Phase.isAsleep_wake] at hsleep
  · rename_i hticket
    exact hticket ((h old hold).ticket? hsleep)

/-- **While somebody sleeps, the buffered items are watched**: there are
as many woken threads as items. -/
structure Watched (q : Queue α) (threads : List (Phase (interface α) β)) : Prop where
  waits : ∀ phase ∈ threads, Waits phase
  closed : q.isOpen = false → asleep threads = 0
  covered : 0 < asleep threads → q.items.length ≤ woken threads

variable {q q' : Queue α} {threads : List (Phase (interface α) β)}

/-- A caller falls asleep only beside an empty open queue. -/
theorem Watched.sleeps (hw : Watched q threads) (hopen : q.isOpen) (hempty : q.items = [])
    {c : Call α} (hmay : c.mayWait) (next : c.Answer → Program (interface α) β)
    (started : Instant) (deadline : Option Instant) (i ticket : Nat) :
    Watched q (threads.set i (.asleep c next started available deadline ticket)) := by
  refine ⟨fun other hmem => ?_, fun hclosed => ?_, fun _ => ?_⟩
  · rcases List.mem_or_eq_of_mem_set hmem with hmem | rfl
    · exact hw.waits other hmem
    · exact ⟨hmay, rfl⟩
  · simp [hopen] at hclosed
  · simp [hempty]

/-- A caller that returns has paid what it owes. -/
theorem Watched.returns (hw : Watched q threads) (waker : Machine.Waker (interface α) β) {i : Nat}
    {phase : Phase (interface α) β} {now : Instant} {visit : Visit} {c : Call α}
    {next : c.Answer → Program (interface α) β} (hi : threads[i]? = some phase)
    (hasks : phase.Asks now visit c next) {wakes : Wakes}
    (hpays : Pass.Pays visit.waited q q' wakes) (p : Program (interface α) β) :
    Watched q' ((Machine.deliver waker.choose (wakes.signal available) threads).set i
      (.running p)) := by
  obtain ⟨hasleep, hwoken⟩ := Machine.count_set_running
    (Machine.getElem?_deliver waker.choose (wakes.signal available) hi hasks.isWoken_eq.1) hasks p
  have hwaits : ∀ other ∈ (Machine.deliver waker.choose (wakes.signal available) threads).set i
      (.running p), Waits other := by
    intro other hmem
    rcases List.mem_or_eq_of_mem_set hmem with hmem | rfl
    · exact waits_deliver _ _ hw.waits other hmem
    · trivial
  cases wakes with
  | nobody =>
    obtain ⟨hopen, hitems⟩ := hpays
    simp only [Wakes.signal, Machine.deliver] at hasleep hwoken hwaits ⊢
    refine ⟨hwaits, fun hclosed => hasleep.trans (hw.closed (hopen ▸ hclosed)), fun hpos => ?_⟩
    have hcovered := hw.covered (hasleep ▸ hpos)
    rcases hitems with hitems | hitems
    · simp [hitems]
    · omega
  | one =>
    obtain ⟨hopen, hitems⟩ := hpays
    simp only [Wakes.signal] at hasleep hwoken hwaits ⊢
    rcases count_deliver_one waker hw.waits with ⟨-, hnone⟩ | ⟨hone, hback⟩
    · -- nobody slept, so there is nobody to watch for
      exact ⟨hwaits, fun _ => hasleep.trans hnone, fun hpos => by omega⟩
    · -- one more is woken, and that pays for the one item that may have come
      refine ⟨hwaits, fun hclosed => ?_, fun hpos => ?_⟩
      · have := hw.closed (hopen ▸ hclosed)
        omega
      · have hcovered := hw.covered (by omega)
        omega
  | all =>
    simp only [Wakes.signal] at hasleep hwaits ⊢
    have hnone := hasleep.trans (asleep_deliver_all waker.choose hw.waits)
    exact ⟨hwaits, fun _ => hnone, fun hpos => by omega⟩

/-- One pass of one thread keeps the count. -/
theorem Watched.serve {m : Machine (interface α) (Queue α) β} (hw : Watched m.shared m.threads)
    (waker : Machine.Waker (interface α) β) {i : Nat} {phase : Phase (interface α) β}
    {visit : Visit} {c : Call α} {next : c.Answer → Program (interface α) β}
    (hi : m.threads[i]? = some phase) (hasks : phase.Asks m.clock visit c next) :
    Watched (m.serve waker.choose i visit c next).shared
      (m.serve waker.choose i visit c next).threads := by
  have hwaited : visit.waited → c.mayWait := by
    intro hvisit
    have hwaits := hw.waits phase (List.mem_of_getElem? hi)
    cases hasks with
    | running => cases hvisit
    | asking => exact hwaits hvisit
  have hpays := pass_signals visit m.shared c hwaited
  cases hturn : (m.shared.pass visit c).turn with
  | sleeps deadline =>
    simp only [hturn] at hpays
    obtain ⟨hsame, hempty, hopen, hmay⟩ := hpays
    simpa [Machine.serve, Server.serve, Pass.served, hturn, hsame] using
      hw.sleeps hopen hempty hmay next visit.started deadline i m.tickets
  | returns answer =>
    simp only [hturn] at hpays
    simpa [Machine.serve, Server.serve, Pass.served, hturn] using
      hw.returns waker hi hasks hpays (next answer)

/-- A sleep that ends is good for the count. -/
theorem Watched.wake (hw : Watched q threads) (i : Nat) :
    Watched q (threads.modify i Phase.wake) := by
  have hwaits : ∀ phase ∈ threads.modify i Phase.wake, Waits phase :=
    waits_deliver (fun _ _ => some i) (.one available) hw.waits
  by_cases hsleeps : ∃ phase, threads[i]? = some phase ∧ phase.isAsleep
  · obtain ⟨phase, hi, hsleep⟩ := hsleeps
    obtain ⟨hone, hback⟩ := Machine.count_modify_wake hi hsleep
    refine ⟨hwaits, fun hclosed => ?_, fun hpos => ?_⟩
    · have := hw.closed hclosed
      omega
    · have hcovered := hw.covered (by omega)
      omega
  · -- a thread that does not sleep stays as it is
    have hsame : threads.modify i Phase.wake = threads := by
      cases hi : threads[i]? with
      | none => exact List.modify_eq_self (List.getElem?_eq_none_iff.mp hi)
      | some phase =>
        cases phase with
        | asleep => exact absurd ⟨_, hi, rfl⟩ hsleeps
        | running | asking => exact (modify_eq_set hi _).trans (set_eq_self hi)
    rwa [hsame]

/-- A request that is made, and not served yet, has no part in the count. -/
theorem Watched.enter {m : Machine (interface α) (Queue α) β} (hw : Watched m.shared m.threads)
    (i : Nat) : Watched (m.enter i).shared (m.enter i).threads := by
  rcases m.enter_cases i with hstay | ⟨c, next, hi, hset⟩
  · rwa [hstay]
  · obtain ⟨hasleep, hwoken⟩ := Machine.count_set_asking hi m.clock
    rw [hset]
    refine ⟨fun other hmem => ?_, fun hclosed => ?_, fun hpos => ?_⟩
    · rcases List.mem_or_eq_of_mem_set hmem with hmem | rfl
      · exact hw.waits other hmem
      · exact fun hwaited => absurd hwaited Bool.false_ne_true
    · exact hasleep.trans (hw.closed hclosed)
    · dsimp only at hpos ⊢
      rw [hwoken]
      exact hw.covered (hasleep ▸ hpos)

/-- **The count is kept by every move**, under every schedule. -/
theorem watched_runNew (programs : List (Program (interface α) β))
    (schedule : List (Machine.Move (interface α) β)) :
    Watched (runNew programs schedule).machine.shared
      (runNew programs schedule).machine.threads := by
  refine Machine.run_induction (P := fun h : History (interface α) (Queue α) β =>
    Watched h.machine.shared h.machine.threads) ?_ ?_ schedule
  · have hnone : asleep (programs.map Phase.running) = 0 := by
      simp [asleep, List.countP_map, Function.comp_def, Phase.isAsleep]
    refine ⟨fun phase hmem => ?_, fun _ => hnone, fun hpos => absurd hnone (Nat.ne_of_gt hpos)⟩
    obtain ⟨p, -, rfl⟩ := List.mem_map.mp hmem
    trivial
  · intro schedule move ih
    generalize (Machine.start (empty : Queue α) programs).run schedule = h at ih ⊢
    cases move with
    | advance waker i =>
      rcases h.machine.advance_cases waker.choose i with ⟨-, hstay⟩ |
        ⟨phase, visit, c, next, hi, hasks, -, hserve⟩
      · simpa [History.step, hstay] using ih
      · simpa [History.step, hserve] using ih.serve waker hi hasks
    | enter i => exact ih.enter i
    | wake i => exact ih.wake i
    | tick d => exact ih

/-- **No wakeup is lost.** In every run of a new queue, by any threads:
on a closed queue nobody sleeps; while somebody sleeps, at least as many
threads are woken and not yet back as items are buffered; and so nobody
sleeps beside an item that no thread was woken for. -/
theorem no_lost_wakeup (programs : List (Program (interface α) β))
    (schedule : List (Machine.Move (interface α) β)) :
    let m := (runNew programs schedule).machine
    (m.shared.isOpen = false → ∀ phase ∈ m.threads, ¬ phase.isAsleep) ∧
      ((∃ phase ∈ m.threads, phase.isAsleep) →
        m.shared.items.length ≤ m.threads.countP Phase.isWoken) ∧
      ¬ (m.shared.items ≠ [] ∧ (∃ phase ∈ m.threads, phase.isAsleep) ∧
        ∀ phase ∈ m.threads, ¬ phase.isWoken) := by
  intro m
  obtain ⟨-, hclosed, hcovered⟩ := watched_runNew programs schedule
  have hcount : (∃ phase ∈ m.threads, phase.isAsleep) →
      m.shared.items.length ≤ m.threads.countP Phase.isWoken :=
    fun hsleep => hcovered (List.countP_pos_iff.mpr hsleep)
  refine ⟨fun hopen => List.countP_eq_zero.mp (hclosed hopen), hcount, ?_⟩
  rintro ⟨hitems, hsleep, hnone⟩
  have hzero : m.threads.countP Phase.isWoken = 0 := List.countP_eq_zero.mpr hnone
  have hlength := hcount hsleep
  rw [hzero, Nat.le_zero, List.length_eq_zero_iff] at hlength
  exact hitems hlength

/-- A reader sleeps on the new queue, and an item wakes it. -/
example :
    let m := (runNew (β := Result Nat)
      [.request (I := interface Nat) Call.dequeue,
        (Program.request (I := interface Nat) (Call.enqueue 5)).bind fun _ => .done (.ok 5)]
      [.advance .longest 0, .advance .longest 1]).machine
    m.shared.items = [5] ∧ m.threads.map Phase.isWoken = [true, false] := by decide

end Queue

end MessageIntake
