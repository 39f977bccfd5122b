import MessageIntake.Proofs.Machine.Walk

/-!
# Runs that cannot be told apart

Two states are alike if they serve alike whatever is allowed: with the
same answer, sleep or program, and states that are alike again. Threads
that ask nothing but what is allowed then do the same from either state:
every schedule of the one machine is one of the other, in which the same
threads ask the same and are answered the same, and which leaves the
threads as they are in the first (`Machine.Alike.run`).

What the states differ in has therefore no effect on any thread, now or
later. Nothing is asked of how the two states came about.
-/

namespace MessageIntake

variable {I : Interface} {σ α β : Type}

/-- Two ways to be served that a thread cannot tell apart. -/
inductive Served.Alike (Allowed : I.Request → Prop) (Rel : σ → σ → Prop) :
    Served I σ β → Served I σ β → Prop
  | answers {s s' : σ} (signal : Signal) (a : β) :
    Rel s s' → Alike Allowed Rel (.answers s signal a) (.answers s' signal a)
  | sleeps {s s' : σ} (c : Condition) (deadline : Option Instant) :
    Rel s s' → Alike Allowed Rel (.sleeps s c deadline) (.sleeps s' c deadline)
  | runs {s s' : σ} {p : Program I β} :
    Rel s s' → p.Asks Allowed → Alike Allowed Rel (.runs s p) (.runs s' p)

/-- **States that are `Rel` serve alike whatever is `Allowed`.** -/
def ServeAlike (I : Interface) [Server I σ] (Allowed : I.Request → Prop) (Rel : σ → σ → Prop) :
    Prop :=
  ∀ visit s s' (r : I.Request), Rel s s' → Allowed r →
    (Server.serve visit s r).Alike Allowed Rel (Server.serve visit s' r)

/-- What a thread sees of an event, and others see of the thread: its
request and the answer, if there was one at once. -/
structure Sight (I : Interface) where
  thread : Nat
  request : I.Request
  answer : Option (I.Answer request)

def Event.sight (e : Event I σ) : Sight I := ⟨e.thread, e.request, e.answer⟩

/-- **Machines that cannot be told apart**: their threads are the same, ask
nothing but what is allowed, and share states that are alike. -/
structure Machine.Alike (Allowed : I.Request → Prop) (Rel : σ → σ → Prop)
    (m m' : Machine I σ α) : Prop where
  shared : Rel m.shared m'.shared
  clock : m.clock = m'.clock
  tickets : m.tickets = m'.tickets
  threads : m.threads = m'.threads
  asks : ∀ p ∈ m.programs, p.Asks Allowed

/-- Runs that cannot be told apart. -/
structure History.Alike (Allowed : I.Request → Prop) (Rel : σ → σ → Prop)
    (h h' : History I σ α) : Prop where
  sights : h.trace.map Event.sight = h'.trace.map Event.sight
  machine : h.machine.Alike Allowed Rel h'.machine

section Serving

variable {Allowed : I.Request → Prop} {Rel : σ → σ → Prop} {r : I.Request}
  {next : I.Answer r → Program I α} {served served' : Served I σ (I.Answer r)}

theorem Served.Alike.state (h : served.Alike Allowed Rel served') :
    Rel served.state served'.state := by
  cases h <;> assumption

theorem Served.Alike.answer?_eq (h : served.Alike Allowed Rel served') :
    served.answer? = served'.answer? := by
  cases h <;> rfl

/-- Who is served goes on with what is allowed. -/
theorem Served.Alike.resume_asks (h : served.Alike Allowed Rel served') (hr : Allowed r)
    (hnext : ∀ a, (next a).Asks Allowed) : (served.resume next).Asks Allowed := by
  cases h with
  | answers _ a _ => exact hnext a
  | sleeps => exact .ask hr hnext
  | runs _ hp => exact hp.bind hnext

variable [Server I σ] {m m' : Machine I σ α}

theorem Machine.Alike.serve (hserve : ServeAlike I Allowed Rel) (h : m.Alike Allowed Rel m')
    (choose : Machine.Chooser I α) (i : Nat) (visit : Visit) (hr : Allowed r)
    (hnext : ∀ a, (next a).Asks Allowed) :
    (m.serve choose i visit r next).Alike Allowed Rel (m'.serve choose i visit r next) := by
  have hserved := hserve visit m.shared m'.shared r h.shared hr
  have hasks : ∀ p ∈ (m.serve choose i visit r next).programs, p.Asks Allowed := by
    rw [programs_serve]
    intro p hp
    rcases List.mem_or_eq_of_mem_set hp with hp | rfl
    · exact h.asks p hp
    · exact hserved.resume_asks hr hnext
  refine ⟨?_, ?_, ?_, ?_, hasks⟩
  · rw [shared_serve, shared_serve]
    exact hserved.state
  all_goals
    unfold Machine.serve
    generalize Server.serve visit m.shared r = served at hserved
    generalize Server.serve visit m'.shared r = served' at hserved
    cases hserved <;> simp [h.clock, h.tickets, h.threads]

end Serving

section Steps

variable {Allowed : I.Request → Prop} {Rel : σ → σ → Prop} [Server I σ] {m m' : Machine I σ α}
  {one other : History I σ α}

/-- Both are served the next request of a thread. -/
theorem History.Alike.advance (hserve : ServeAlike I Allowed Rel) (h : one.Alike Allowed Rel other)
    (waker : Machine.Waker I α) {i : Nat} {phase : Phase I α} {visit : Visit} {r : I.Request}
    {next : I.Answer r → Program I α} (hi : one.machine.threads[i]? = some phase)
    (hasks : phase.Asks one.machine.clock visit r next) :
    (one.step (.advance waker i)).Alike Allowed Rel (other.step (.advance waker i)) := by
  obtain ⟨hsights, hmachine⟩ := h
  have hi' : other.machine.threads[i]? = some phase := hmachine.threads ▸ hi
  have hasks' : phase.Asks other.machine.clock visit r next := hmachine.clock ▸ hasks
  obtain ⟨hevent, hadvance⟩ := Machine.advance_of_asks hi hasks waker.choose
  obtain ⟨hevent', hadvance'⟩ := Machine.advance_of_asks hi' hasks' waker.choose
  have hprogram : (Program.ask r next).Asks Allowed :=
    hmachine.asks _ (List.mem_map.mpr ⟨phase, List.mem_of_getElem? hi, hasks.program_eq⟩)
  cases hprogram with
  | ask hr hnext =>
    have hanswer := (hserve visit _ _ r hmachine.shared hr).answer?_eq
    refine ⟨?_, ?_⟩
    · simp only [History.step, hevent, hevent', List.map_append, hsights, Event.of, Event.sight,
        hanswer, Option.toList_some, List.map_cons, List.map_nil]
    · simp only [History.step, hadvance, hadvance']
      exact hmachine.serve hserve waker.choose i visit hr hnext

/-- **A move of the one is a move of the other**, in which the same is seen. -/
theorem History.Alike.step (hserve : ServeAlike I Allowed Rel) (h : one.Alike Allowed Rel other)
    (move : Machine.Move I α) : (one.step move).Alike Allowed Rel (other.step move) := by
  cases move with
  | enter i =>
    obtain ⟨hsights, hmachine⟩ := h
    refine ⟨hsights, hmachine.shared, hmachine.clock, hmachine.tickets, ?_, ?_⟩
    · simp only [History.step, Machine.enter, hmachine.threads, hmachine.clock]
    · exact (one.machine.programs_enter i).symm ▸ hmachine.asks
  | wake i =>
    obtain ⟨hsights, hmachine⟩ := h
    refine ⟨hsights, hmachine.shared, hmachine.clock, hmachine.tickets, ?_, ?_⟩
    · exact congrArg (fun threads => threads.modify i Phase.wake) hmachine.threads
    · exact (one.machine.programs_wake i).symm ▸ hmachine.asks
  | tick d =>
    obtain ⟨hsights, hmachine⟩ := h
    exact ⟨hsights, hmachine.shared, congrArg (· + d) hmachine.clock, hmachine.tickets,
      hmachine.threads, hmachine.asks⟩
  | advance waker i =>
    rcases one.machine.advance_cases waker.choose i with ⟨hevent, hstay⟩ |
      ⟨phase, visit, r, next, hi, hasks, -, -⟩
    · have hevent' : other.machine.event? i = none := by
        rw [Machine.event?, Option.map_eq_none_iff] at hevent ⊢
        rw [← hevent]
        simp only [Machine.asks?, h.machine.threads, h.machine.clock]
      have hstay' := Machine.advance_of_event?_eq_none hevent' waker.choose
      simp only [History.step, hevent, hevent', hstay, hstay', Option.toList_none, List.append_nil]
      exact h
    · exact h.advance hserve waker hi hasks

/-- **Machines that cannot be told apart run alike**, whatever the schedule. -/
theorem Machine.Alike.run (hserve : ServeAlike I Allowed Rel) (h : m.Alike Allowed Rel m')
    (schedule : List (Machine.Move I α)) : (m.run schedule).Alike Allowed Rel (m'.run schedule) := by
  induction schedule using List.reverseRecOn with
  | nil => exact ⟨rfl, h⟩
  | append_singleton schedule move ih =>
    rw [run_concat, run_concat]
    exact ih.step hserve move

/-- A state is like itself, if no program that runs for what is allowed asks for
more. -/
theorem ServeAlike.of_runs
    (h : ∀ visit (s s' : σ) (r : I.Request) p, Allowed r → Server.serve visit s r = .runs s' p →
      p.Asks Allowed) : ServeAlike I Allowed (Eq : σ → σ → Prop) := by
  rintro visit s _ r rfl hr
  cases hserve : Server.serve visit s r with
  | answers s' signal a => exact .answers signal a rfl
  | sleeps s' c deadline => exact .sleeps c deadline rfl
  | runs s' p => exact .runs rfl (h visit s s' r p hr hserve)

end Steps

end MessageIntake
