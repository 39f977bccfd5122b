import MessageIntake.Proofs.Machine.Beside
import MessageIntake.Proofs.Machine.Time

/-!
# One request in place of another

Two requests may be served alike, but for the answer: wherever the one sleeps
the other does, and the answer to the one can be told from the answer to the
other. Then a thread may ask the other in place of the one, and nobody can tell:
every schedule of the machine in which it asks the one is, move by move, a
schedule of the machine in which it asks the other, with the same states, the
same sleeps and the same results (`StandIn.lockstep`).

Requests may be alike at some times only, or only for threads that come to them
in a certain way. A `StandIn` says which times and which visits are in question,
and that serving leads out of them only as time does.
-/

namespace MessageIntake

variable {I : Interface} {σ α β γ : Type}

/-- The same, with another answer. -/
def Served.map (f : β → γ) : Served I σ β → Served I σ γ
  | .answers s signal a => .answers s signal (f a)
  | .sleeps s c deadline => .sleeps s c deadline
  | .runs s p => .runs s (p.bind fun b => .done (f b))

theorem Served.map_id (served : Served I σ β) : served.map id = served := by
  cases served with
  | answers | sleeps => rfl
  | runs s p => exact congrArg (Served.runs s) p.bind_done

theorem Served.answer?_map (f : β → γ) (served : Served I σ β) :
    (served.map f).answer? = served.answer?.map f := by
  cases served <;> rfl

theorem Served.state_map (f : β → γ) (served : Served I σ β) :
    (served.map f).state = served.state := by
  cases served <;> rfl

/-- **A request that may be asked in place of another.** -/
structure StandIn (I : Interface) (σ : Type) [Server I σ] where
  request : I.Request
  /-- The one that is asked in its place, and what its answer means. -/
  other : I.Request
  convert : I.Answer other → I.Answer request
  /-- The times in question, and the visits. -/
  During : Instant → Prop
  Visits : Visit → Prop
  /-- Every first visit at such a time is in question, if the request was made at
  such a time, and so is the next after a sleep. -/
  first {started now : Instant} :
    During started → started ≤ now → During now → Visits ⟨started, now, false⟩
  again {visit : Visit} {s s' : σ} {c : Condition} {deadline : Option Instant} :
    Visits visit → Server.serve visit s other = .sleeps s' c deadline →
    ∀ now, During now → Visits ⟨visit.started, now, true⟩
  serve_eq {visit : Visit} (s : σ) :
    Visits visit → Server.serve visit s request = (Server.serve visit s other).map convert

variable [Server I σ] (x : StandIn I σ)

/-! ## Threads and machines -/

/-- **A thread that asks the one request**, beside one that asks the other in its
place. Any other thread is beside itself. -/
inductive Phase.StandsIn (now : Instant) : Phase I α → Phase I α → Prop
  | same (phase : Phase I α) : StandsIn now phase phase
  | running (next : I.Answer x.request → Program I α) :
    StandsIn now (.running (.ask x.request next))
      (.running (.ask x.other fun a => next (x.convert a)))
  | asking (next : I.Answer x.request → Program I α) (started : Instant) (waited : Bool) :
    (∀ later, now ≤ later → x.During later → x.Visits ⟨started, later, waited⟩) →
    StandsIn now (.asking x.request next started waited)
      (.asking x.other (fun a => next (x.convert a)) started waited)
  | asleep (next : I.Answer x.request → Program I α) (started : Instant) (c : Condition)
    (deadline : Option Instant) (ticket : Nat) :
    (∀ later, now ≤ later → x.During later → x.Visits ⟨started, later, true⟩) →
    StandsIn now (.asleep x.request next started c deadline ticket)
      (.asleep x.other (fun a => next (x.convert a)) started c deadline ticket)

/-- The same event, or the one of asking the other request in place of the one. -/
inductive Event.StandsIn : Event I σ → Event I σ → Prop
  | same (e : Event I σ) : StandsIn e e
  | other (thread : Nat) (before : σ) (answer : Option (I.Answer x.other)) (after : σ) :
    StandsIn ⟨thread, before, x.request, answer.map x.convert, after⟩
      ⟨thread, before, x.other, answer, after⟩

/-- **Machines that differ in what is asked only.** -/
structure Machine.StandsIn (m m' : Machine I σ α) : Prop where
  shared : m.shared = m'.shared
  clock : m.clock = m'.clock
  tickets : m.tickets = m'.tickets
  threads : List.Forall₂ (Phase.StandsIn x m.clock) m.threads m'.threads

/-- **Runs that differ in what is asked only.** -/
structure History.StandsIn (h h' : History I σ α) : Prop where
  trace : List.Forall₂ (Event.StandsIn x) h.trace h'.trace
  machine : h.machine.StandsIn x h'.machine

variable {x} {p q : Phase I α} {m m' : Machine I σ α} {now : Instant}

theorem Phase.StandsIn.together : Phase.Together (Phase.StandsIn (α := α) x now) where
  ticket?_eq h c := by cases h <;> rfl
  wake h := by
    cases h with
    | same phase => exact .same _
    | running next => exact .running next
    | asking next started waited hvisits => exact .asking next started waited hvisits
    | asleep next started _ _ _ hvisits => exact .asking next started true hvisits

/-- As time passes the two stay beside each other. -/
theorem Phase.StandsIn.later (h : p.StandsIn x now q) {later : Instant} (hle : now ≤ later) :
    p.StandsIn x later q := by
  cases h with
  | same => exact .same _
  | running next => exact .running next
  | asking next started waited hvisits =>
    exact .asking next started waited fun _ hlater => hvisits _ (Nat.le_trans hle hlater)
  | asleep next started c deadline ticket hvisits =>
    exact .asleep next started c deadline ticket fun _ hlater =>
      hvisits _ (Nat.le_trans hle hlater)

/-- Both make their request, or neither has one to make. -/
theorem Phase.StandsIn.enter (h : p.StandsIn x now q) (hnow : x.During now) :
    (p.enter now).StandsIn x now (q.enter now) := by
  cases h with
  | same phase => exact .same _
  | running next => exact .asking next now false fun _ => x.first hnow
  | asking next started waited hvisits => exact .asking next started waited hvisits
  | asleep next started c deadline ticket hvisits =>
    exact .asleep next started c deadline ticket hvisits

/-- What has ended has ended with the same. -/
theorem Machine.StandsIn.result?_eq (h : m.StandsIn x m') (i : Nat) : m.result? i = m'.result? i := by
  have hresult : ∀ p q : Phase I α, p.StandsIn x m.clock q → p.result? = q.result? := by
    intro p q hpq
    cases hpq <;> rfl
  unfold Machine.result?
  cases hp : m.threads[i]? with
  | none =>
    have hlength : m'.threads.length ≤ i := h.threads.length_eq ▸ List.getElem?_eq_none_iff.mp hp
    rw [List.getElem?_eq_none hlength]
  | some p =>
    obtain ⟨q, hq, hpq⟩ := exists_right_of_getElem? h.threads hp
    rw [hq]
    exact hresult p q hpq

/-- A machine before a thread asks, whatever the other threads are at. -/
theorem StandIn.start (x : StandIn I σ) (m : Machine I σ α) (i : Nat)
    (next : I.Answer x.request → Program I α) :
    (m.assign i ((Program.request x.request).bind next)).StandsIn x
      (m.assign i ((Program.request x.other).bind fun a => next (x.convert a))) :=
  ⟨rfl, rfl, rfl, forall₂_set (List.forall₂_same.mpr fun phase _ => .same phase) (.running next) i⟩

/-! ## What both are served -/

/-- The requests of threads beside each other. -/
inductive StandIn.Replaces (x : StandIn I σ) (visit : Visit) :
    (r r' : I.Request) → (I.Answer r' → I.Answer r) → Prop
  | same (r : I.Request) : Replaces x visit r r id
  | other : x.Visits visit → Replaces x visit x.request x.other x.convert

/-- Threads beside each other both ask, or neither does. -/
theorem Phase.StandsIn.asks (h : p.StandsIn x now q) (hnow : x.During now) :
    ((∀ visit r next, ¬ p.Asks now visit r next) ∧ ∀ visit r next, ¬ q.Asks now visit r next) ∨
      ∃ visit r r' f next, x.Replaces visit r r' f ∧ p.Asks now visit r next ∧
        q.Asks now visit r' fun a => next (f a) := by
  cases h with
  | same =>
    by_cases hasks : ∃ visit r next, p.Asks now visit r next
    · obtain ⟨visit, r, next, hasks⟩ := hasks
      exact .inr ⟨visit, r, r, id, next, .same r, hasks, hasks⟩
    · have hnone : ∀ visit r next, ¬ p.Asks now visit r next :=
        fun visit r next h => hasks ⟨visit, r, next, h⟩
      exact .inl ⟨hnone, hnone⟩
  | running next =>
    have hvisit := x.first hnow (Nat.le_refl _) hnow
    exact .inr ⟨_, _, _, _, next, .other hvisit, .running _ _, .running _ _⟩
  | asking next started waited hvisits =>
    have hvisit := hvisits now (Nat.le_refl _) hnow
    exact .inr ⟨_, _, _, _, next, .other hvisit, .asking _ _ _ _, .asking _ _ _ _⟩
  | asleep => exact .inl ⟨nofun, nofun⟩

namespace StandIn.Replaces

variable {visit : Visit} {r r' : I.Request} {f : I.Answer r' → I.Answer r}

theorem serve_eq (h : x.Replaces visit r r' f) (s : σ) :
    Server.serve visit s r = (Server.serve visit s r').map f := by
  cases h with
  | same => exact (Served.map_id _).symm
  | other hvisit => exact x.serve_eq s hvisit

/-- Both events are one, but for what is asked. -/
theorem event (h : x.Replaces visit r r' f) (i : Nat) (s : σ) :
    (Event.of i visit s r).StandsIn x (.of i visit s r') := by
  cases h with
  | same => exact .same _
  | other hvisit =>
    rw [Event.of, x.serve_eq s hvisit, Served.answer?_map, Served.state_map]
    exact .other _ _ _ _

/-- Both sleep, and ask again as before. -/
theorem asleep (h : x.Replaces visit r r' f) {s s' : σ} {c : Condition} {deadline : Option Instant}
    (hserve : Server.serve visit s r' = .sleeps s' c deadline) (now : Instant) (ticket : Nat)
    (next : I.Answer r → Program I α) :
    Phase.StandsIn x now (.asleep r next visit.started c deadline ticket)
      (.asleep r' (fun a => next (f a)) visit.started c deadline ticket) := by
  cases h with
  | same => exact .same _
  | other hvisit => exact .asleep next _ _ _ _ fun later _ => x.again hvisit hserve later

end StandIn.Replaces

/-- **Both are served the same**, but for the answer. -/
theorem Machine.StandsIn.serve (h : m.StandsIn x m') {visit : Visit} {r r' : I.Request}
    {f : I.Answer r' → I.Answer r} (hreplaces : x.Replaces visit r r' f) {choose choose' : Chooser I α}
    (hsame : ∀ c, choose m.threads c = choose' m'.threads c) (i : Nat)
    (next : I.Answer r → Program I α) :
    (m.serve choose i visit r next).StandsIn x
      (m'.serve choose' i visit r' fun a => next (f a)) := by
  unfold Machine.serve
  rw [h.shared, hreplaces.serve_eq]
  cases hserve : Server.serve visit m'.shared r' with
  | answers s signal a =>
    have hthreads := Phase.StandsIn.together.deliver h.threads hsame signal
    exact ⟨rfl, h.clock, h.tickets, forall₂_set hthreads (.same _) i⟩
  | sleeps s c deadline =>
    have hasleep := hreplaces.asleep hserve m.clock m'.tickets next
    refine ⟨rfl, h.clock, congrArg (· + 1) h.tickets, ?_⟩
    dsimp only [Served.map]
    rw [h.tickets]
    exact forall₂_set h.threads hasleep i
  | runs s p =>
    have hprogram : (p.bind fun b => .done (f b)).bind next = p.bind fun a => next (f a) :=
      Program.bind_assoc _ _ _
    refine ⟨rfl, h.clock, h.tickets, ?_⟩
    dsimp only [Served.map]
    rw [hprogram]
    exact forall₂_set h.threads (.same _) i

/-! ## Moves -/

/-- **The same move**, but that a signal may wake another sleeper. -/
inductive Machine.Move.Same : Move I α → Move I α → Prop
  | advance (waker waker' : Waker I α) (i : Nat) : Same (.advance waker i) (.advance waker' i)
  | enter (i : Nat) : Same (.enter i) (.enter i)
  | wake (i : Nat) : Same (.wake i) (.wake i)
  | tick (d : Nat) : Same (.tick d) (.tick d)

/-- The same move, of threads beside each other: a signal wakes the same
sleeper. -/
inductive Machine.Move.Agrees (xs ys : List (Phase I α)) : Move I α → Move I α → Prop
  | advance (waker waker' : Waker I α) (i : Nat) :
    (∀ c, waker.choose xs c = waker'.choose ys c) →
    Agrees xs ys (.advance waker i) (.advance waker' i)
  | enter (i : Nat) : Agrees xs ys (.enter i) (.enter i)
  | wake (i : Nat) : Agrees xs ys (.wake i) (.wake i)
  | tick (d : Nat) : Agrees xs ys (.tick d) (.tick d)

namespace Machine.Move

omit [Server I σ] in
theorem Same.refl (move : Move I α) : Same move move := by
  cases move with
  | advance waker i => exact .advance waker waker i
  | enter i => exact .enter i
  | wake i => exact .wake i
  | tick d => exact .tick d

variable {xs ys : List (Phase I α)} {move move' : Move I α}

theorem Agrees.same (h : Agrees xs ys move move') : Same move move' := by
  cases h with
  | advance waker waker' i => exact .advance waker waker' i
  | enter i => exact .enter i
  | wake i => exact .wake i
  | tick d => exact .tick d

theorem Agrees.symm (h : Agrees xs ys move move') : Agrees ys xs move' move := by
  cases h with
  | advance waker waker' i hsame => exact .advance waker' waker i fun c => (hsame c).symm
  | enter i => exact .enter i
  | wake i => exact .wake i
  | tick d => exact .tick d

/-- Where the same threads sleep, every move can be made. -/
theorem exists_agrees
    (h : ∀ (i : Nat) c, xs[i]?.bind (Phase.ticket? c) = ys[i]?.bind (Phase.ticket? c))
    (move : Move I α) : ∃ move', Agrees xs ys move move' := by
  cases move with
  | advance waker i => exact ⟨_, .advance waker _ i fun c => (waker.imitating_eq h c).symm⟩
  | enter i => exact ⟨_, .enter i⟩
  | wake i => exact ⟨_, .wake i⟩
  | tick d => exact ⟨_, .tick d⟩

end Machine.Move

namespace History.StandsIn

variable {h h' : History I σ α}

/-- Both ask, the one in place of the other. -/
theorem ask (hbeside : h.StandsIn x h') {waker waker' : Machine.Waker I α} {i : Nat}
    (hsame : ∀ c, waker.choose h.machine.threads c = waker'.choose h'.machine.threads c)
    {visit : Visit} {r r' : I.Request} {f : I.Answer r' → I.Answer r}
    {next : I.Answer r → Program I α} (hreplaces : x.Replaces visit r r' f)
    (hp : h.machine.threads[i]? = some p) (hasks : p.Asks h.machine.clock visit r next)
    (hq : h'.machine.threads[i]? = some q)
    (hasks' : q.Asks h'.machine.clock visit r' fun a => next (f a)) :
    (h.step (.advance waker i)).StandsIn x (h'.step (.advance waker' i)) := by
  obtain ⟨htrace, hmachine⟩ := hbeside
  obtain ⟨hevent, hserve⟩ := Machine.advance_of_asks hp hasks waker.choose
  obtain ⟨hevent', hserve'⟩ := Machine.advance_of_asks hq hasks' waker'.choose
  simp only [History.step, hevent, hserve, hevent', hserve', Option.toList_some]
  refine ⟨?_, hmachine.serve hreplaces hsame i next⟩
  rw [hmachine.shared]
  exact List.rel_append htrace (.cons (hreplaces.event i _) .nil)

theorem advance (hbeside : h.StandsIn x h') (hnow : x.During h.machine.clock)
    {waker waker' : Machine.Waker I α}
    (hsame : ∀ c, waker.choose h.machine.threads c = waker'.choose h'.machine.threads c) (i : Nat) :
    (h.step (.advance waker i)).StandsIn x (h'.step (.advance waker' i)) := by
  have hmachine := hbeside.machine
  by_cases hasks : ∃ p ∈ h.machine.threads[i]?, ∃ visit r next,
      p.Asks h.machine.clock visit r next
  · obtain ⟨p, hp, visit, r, next, hpasks⟩ := hasks
    obtain ⟨q, hq, hpq⟩ := exists_right_of_getElem? hmachine.threads hp
    rcases hpq.asks hnow with ⟨hnone, -⟩ | ⟨visit, r, r', f, next, hreplaces, hasks, hasks'⟩
    · exact absurd hpasks (hnone visit r next)
    · rw [hmachine.clock] at hasks'
      exact hbeside.ask hsame hreplaces hp hasks hq hasks'
  -- if the one does not ask then neither does the other
  · have hstays : ∀ p ∈ h.machine.threads[i]?, ∀ visit r next,
        ¬ p.Asks h.machine.clock visit r next :=
      fun p hp visit r next hpasks => hasks ⟨p, hp, visit, r, next, hpasks⟩
    have hstays' : ∀ q ∈ h'.machine.threads[i]?, ∀ visit r next,
        ¬ q.Asks h'.machine.clock visit r next := by
      intro q hq visit r next hqasks
      obtain ⟨p, hp, hpq⟩ := exists_left_of_getElem? hmachine.threads hq
      rw [← hmachine.clock] at hqasks
      rcases hpq.asks hnow with ⟨-, hnone⟩ | ⟨visit', r₁, r₂, f, next', -, hpasks, -⟩
      · exact hnone visit r next hqasks
      · exact hstays p hp visit' r₁ next' hpasks
    obtain ⟨hevent, hstay⟩ := Machine.advance_of_not_asks hstays waker.choose
    obtain ⟨hevent', hstay'⟩ := Machine.advance_of_not_asks hstays' waker'.choose
    simp only [History.step, hevent, hstay, hevent', hstay', Option.toList_none, List.append_nil]
    exact hbeside

/-- **Runs stay beside each other**, by a move of the one and the same move of
the other. -/
theorem step (hbeside : h.StandsIn x h') (hnow : x.During h.machine.clock)
    {move move' : Machine.Move I α}
    (hmove : Machine.Move.Agrees h.machine.threads h'.machine.threads move move') :
    (h.step move).StandsIn x (h'.step move') := by
  cases hmove with
  | advance waker waker' i hsame => exact hbeside.advance hnow hsame i
  | enter i =>
    obtain ⟨htrace, hmachine⟩ := hbeside
    have hthreads := forall₂_modify hmachine.threads (fun _ _ hpq => hpq.enter hnow) i
    refine ⟨htrace, hmachine.shared, hmachine.clock, hmachine.tickets, ?_⟩
    simp only [History.step, Machine.enter, ← hmachine.clock]
    exact hthreads
  | wake i =>
    obtain ⟨htrace, hmachine⟩ := hbeside
    have hthreads := forall₂_modify hmachine.threads
      (fun _ _ hpq => Phase.StandsIn.together.wake hpq) i
    exact ⟨htrace, hmachine.shared, hmachine.clock, hmachine.tickets, hthreads⟩
  | tick d =>
    obtain ⟨htrace, hmachine⟩ := hbeside
    exact ⟨htrace, hmachine.shared, congrArg (· + d) hmachine.clock, hmachine.tickets,
      hmachine.threads.imp fun _ _ hpq => hpq.later (Nat.le_add_right _ d)⟩

/-- Whatever move the one makes the other can make, and the other way round. -/
theorem exists_step (hbeside : h.StandsIn x h') (hnow : x.During h.machine.clock)
    (move : Machine.Move I α) :
    ∃ move', Machine.Move.Same move move' ∧ (h.step move).StandsIn x (h'.step move') := by
  have hsame := Phase.StandsIn.together.getElem?_ticket? hbeside.machine.threads
  obtain ⟨move', hmove⟩ := Machine.Move.exists_agrees hsame move
  exact ⟨move', hmove.same, hbeside.step hnow hmove⟩

theorem exists_step' (hbeside : h.StandsIn x h') (hnow : x.During h.machine.clock)
    (move' : Machine.Move I α) :
    ∃ move, Machine.Move.Same move' move ∧ (h.step move).StandsIn x (h'.step move') := by
  have hsame := Phase.StandsIn.together.getElem?_ticket? hbeside.machine.threads
  obtain ⟨move, hmove⟩ := Machine.Move.exists_agrees (fun i c => (hsame i c).symm) move'
  exact ⟨move, hmove.same, hbeside.step hnow hmove.symm⟩

end History.StandsIn

/-! ## Runs -/

/-- Every schedule of `m` is one of `m'`, with the same moves, that leads to what
is `Related`, at every point as long as `While` holds of the time. -/
def Machine.Imitates (Related : History I σ α → History I σ α → Prop) (While : Instant → Prop)
    (m' m : Machine I σ α) : Prop :=
  ∃ translate : List (Move I α) → List (Move I α), InStep translate ∧
    ∀ schedule, List.Forall₂ Move.Same schedule (translate schedule) ∧
      (While (m.run schedule).machine.clock →
        Related (m.run schedule) (m'.run (translate schedule)))

/-- **Machines that run in lockstep**: every schedule of the one is one of the
other, and the other way round. -/
structure Machine.Lockstep (Related : History I σ α → History I σ α → Prop)
    (While : Instant → Prop) (m m' : Machine I σ α) : Prop where
  forward : m'.Imitates Related While m
  backward : m.Imitates (flip Related) While m'

/-- Who can imitate every move can imitate every run. -/
theorem Machine.imitates_of_step {Related : History I σ α → History I σ α → Prop}
    {While : Instant → Prop} (hearlier : ∀ now later, now ≤ later → While later → While now)
    (hstart : Related ⟨[], m⟩ ⟨[], m'⟩)
    (hstep : ∀ h h' move, m.clock ≤ h.machine.clock → While h.machine.clock → Related h h' →
      ∃ move', Move.Same move move' ∧ Related (h.step move) (h'.step move')) :
    m'.Imitates Related While m := by
  refine exists_inStep (fun schedule schedule' =>
    List.Forall₂ Move.Same schedule schedule' ∧ (While (m.run schedule).machine.clock →
      Related (m.run schedule) (m'.run schedule'))) [] ⟨.nil, fun _ => hstart⟩ ?_
  rintro schedule schedule' move ⟨hsame, ih⟩
  have hclock := (m.run schedule).clock_le_step move
  by_cases hwhile : While (m.run schedule).machine.clock
  · obtain ⟨move', hmove, hrelated⟩ :=
      hstep _ _ move (m.clock_le_run schedule) hwhile (ih hwhile)
    refine ⟨[move'], List.rel_append hsame (.cons hmove .nil), fun _ => ?_⟩
    rwa [run_concat, run_concat]
  -- time has run out, so the other may do as it likes
  · refine ⟨[move], List.rel_append hsame (.cons (.refl move) .nil), fun hlater => ?_⟩
    rw [run_concat] at hlater
    exact absurd (hearlier _ _ hclock hlater) hwhile

/-- **A request may be asked in place of another**: machines that differ in that
only run in lockstep, as long as the time is in question. -/
theorem StandIn.lockstep {While : Instant → Prop} (hstart : m.StandsIn x m')
    (hearlier : ∀ now later, now ≤ later → While later → While now)
    (hduring : ∀ now, m.clock ≤ now → While now → x.During now) :
    m.Lockstep (History.StandsIn x) While m' where
  forward := by
    refine Machine.imitates_of_step hearlier ⟨.nil, hstart⟩ ?_
    intro h h' move hclock hwhile hbeside
    exact hbeside.exists_step (hduring _ hclock hwhile) move
  backward := by
    refine Machine.imitates_of_step hearlier ⟨.nil, hstart⟩ ?_
    intro h' h move' hclock hwhile hbeside
    have hsame : h.machine.clock = h'.machine.clock := hbeside.machine.clock
    rw [← hsame] at hclock hwhile
    rw [← hstart.clock] at hclock
    exact hbeside.exists_step' (hduring _ hclock hwhile) move'

/-- If the times in question do not end, once they have come, the machines run in
lockstep for ever. -/
theorem StandIn.lockstep_always (hstart : m.StandsIn x m') (hnow : x.During m.clock)
    (hlater : ∀ now later, now ≤ later → x.During now → x.During later) :
    m.Lockstep (History.StandsIn x) (fun _ => True) m' :=
  lockstep hstart (fun _ _ _ h => h) fun now hle _ => hlater _ now hle hnow

/-- If the times in question have always been, the machines run in lockstep as long
as they last. -/
theorem StandIn.lockstep_during (hstart : m.StandsIn x m')
    (hearlier : ∀ now later, now ≤ later → x.During later → x.During now) :
    m.Lockstep (History.StandsIn x) x.During m' :=
  lockstep hstart hearlier fun _ _ h => h

end MessageIntake
