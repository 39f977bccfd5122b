import MessageIntake.Proofs.Machine.Front

/-!
# Programs with detours

A detour is a request in between that is refused: it is answered in a way that
counts as a refusal and leaves the state as it is, and the program then goes on as
if it had not asked. What it would do if it were not refused is left open. So a
machine whose threads take detours does what the machine without them does, move by
move, for as long as they are refused (`Machine.Detours.forward`,
`Machine.Detours.backward`); a thread whose detour is not refused goes astray, and
nothing is said of what comes then.
-/

namespace MessageIntake

variable {I : Interface} {σ α : Type} {Refuses : (r : I.Request) → I.Answer r → Prop}

/-- **A program with detours**, and the program without them. -/
inductive Program.Detours (Refuses : (r : I.Request) → I.Answer r → Prop) :
    Program I α → Program I α → Prop
  | done (a : α) : Detours Refuses (.done a) (.done a)
  | ask {r : I.Request} {next next' : I.Answer r → Program I α} :
    (∀ a, Detours Refuses (next a) (next' a)) → Detours Refuses (.ask r next) (.ask r next')
  | detour {r : I.Request} {next : I.Answer r → Program I α} {q : Program I α} :
    (∃ a, Refuses r a) → (∀ a, Refuses r a → Detours Refuses (next a) q) →
    Detours Refuses (.ask r next) q

namespace Program.Detours

variable {β : Type} {p q : Program I α}

/-- A program is one without detours. -/
theorem refl (p : Program I α) : p.Detours Refuses p := by
  induction p with
  | done a => exact .done a
  | ask r next ih => exact .ask ih

/-- One after another. -/
theorem bind {f g : α → Program I β} (h : p.Detours Refuses q)
    (hnext : ∀ a, (f a).Detours Refuses (g a)) : (p.bind f).Detours Refuses (q.bind g) := by
  induction h with
  | done a => exact hnext a
  | ask _ ih => exact .ask ih
  | detour hrefuses _ ih => exact .detour hrefuses ih

/-- The same program before them. -/
theorem after (p : Program I α) {f g : α → Program I β}
    (hnext : ∀ a, (f a).Detours Refuses (g a)) : (p.bind f).Detours Refuses (p.bind g) :=
  (refl p).bind hnext

end Program.Detours

/-! ## Threads and machines -/

/-- **A thread that may take detours**, beside one that takes none: they make the same
requests, sleep and are woken together, but for the detours. -/
inductive Phase.Detours (Refuses : (r : I.Request) → I.Answer r → Prop) :
    Phase I α → Phase I α → Prop
  | running {p q : Program I α} : p.Detours Refuses q → Detours Refuses (.running p) (.running q)
  | detouring {r : I.Request} {next : I.Answer r → Program I α} {q : Program I α}
    (started : Instant) :
    (∃ a, Refuses r a) → (∀ a, Refuses r a → (next a).Detours Refuses q) →
    Detours Refuses (.asking r next started false) (.running q)
  | asking {r : I.Request} {next next' : I.Answer r → Program I α} (started : Instant)
    (waited : Bool) : (∀ a, (next a).Detours Refuses (next' a)) →
    Detours Refuses (.asking r next started waited) (.asking r next' started waited)
  | asleep {r : I.Request} {next next' : I.Answer r → Program I α} (started : Instant)
    (c : Condition) (deadline : Option Instant) (ticket : Nat) :
    (∀ a, (next a).Detours Refuses (next' a)) →
    Detours Refuses (.asleep r next started c deadline ticket)
      (.asleep r next' started c deadline ticket)

theorem Phase.Detours.together : Phase.Together (Phase.Detours (α := α) Refuses) where
  ticket?_eq h c := by cases h <;> rfl
  wake h := by
    cases h with
    | running h => exact .running h
    | detouring started hrefuses h => exact .detouring started hrefuses h
    | asking started waited h => exact .asking started waited h
    | asleep started _ _ _ h => exact .asking started true h

/-- **A trace with refusals in between**, which leave the state as it is. -/
inductive Refusals (Refuses : (r : I.Request) → I.Answer r → Prop) :
    List (Event I σ) → List (Event I σ) → Prop
  | start : Refusals Refuses [] []
  | both {xs ys : List (Event I σ)} (e : Event I σ) :
    Refusals Refuses xs ys → Refusals Refuses (xs ++ [e]) (ys ++ [e])
  | refused {xs ys : List (Event I σ)} (i : Nat) (s : σ) {r : I.Request} {a : I.Answer r} :
    Refuses r a → Refusals Refuses xs ys → Refusals Refuses (xs ++ [⟨i, s, r, some a, s⟩]) ys

/-- **Machines that differ in the detours of their threads only.** -/
structure Machine.Detours (Refuses : (r : I.Request) → I.Answer r → Prop)
    (f m : Machine I σ α) : Prop where
  shared : f.shared = m.shared
  clock : f.clock = m.clock
  tickets : f.tickets = m.tickets
  threads : List.Forall₂ (Phase.Detours Refuses) f.threads m.threads

/-- **Runs that differ in detours only.** -/
structure History.Detours (Refuses : (r : I.Request) → I.Answer r → Prop)
    (f m : History I σ α) : Prop where
  trace : Refusals Refuses f.trace m.trace
  machine : f.machine.Detours Refuses m.machine

/-- Threads that are about to start. -/
theorem Machine.Detours.start {ps qs : List (Program I α)} (s : σ)
    (h : List.Forall₂ (Program.Detours Refuses) ps qs) :
    (Machine.start s ps).Detours Refuses (Machine.start s qs) :=
  ⟨rfl, rfl, rfl, List.forall₂_map_left_iff.mpr
    (List.forall₂_map_right_iff.mpr (h.imp fun _ _ hp => .running hp))⟩

/-- **A result that comes with detours comes without them.** -/
theorem Machine.Detours.result? {f m : Machine I σ α} (h : f.Detours Refuses m) {i : Nat} {a : α}
    (ha : f.result? i = some a) : m.result? i = some a := by
  obtain ⟨x, hx, hresult⟩ := Option.bind_eq_some_iff.mp ha
  obtain ⟨y, hy, hxy⟩ := exists_right_of_getElem? h.threads hx
  rw [Machine.result?, hy, Option.bind_some]
  cases hxy with
  | running hp =>
    cases hp with
    | done => exact hresult
    | ask | detour => cases hresult
  | detouring | asking | asleep => cases hresult

variable [Server I σ]

/-- A refusal leaves the state as it is and wakes nobody. -/
def Harmless (σ : Type) [Server I σ] (Refuses : (r : I.Request) → I.Answer r → Prop) : Prop :=
  ∀ visit (s s' : σ) r signal a, Server.serve visit s r = .answers s' signal a → Refuses r a →
    s' = s ∧ signal = .nobody

/-- **A thread goes astray**: it is about to take a detour, and is not refused. -/
def Machine.Strays (Refuses : (r : I.Request) → I.Answer r → Prop) (f m : Machine I σ α)
    (i : Nat) : Prop :=
  ∃ phase visit r next q, f.threads[i]? = some phase ∧ phase.Asks f.clock visit r next ∧
    m.threads[i]? = some (.running q) ∧ (∃ a, Refuses r a) ∧
    (∀ a, Refuses r a → (next a).Detours Refuses q) ∧
    ∀ a, Refuses r a → (Server.serve visit f.shared r).answer? ≠ some a

/-! ## Moves -/

/-- **Both are served the same.** -/
theorem Machine.Detours.serve {f m : Machine I σ α} (h : f.Detours Refuses m)
    {choose choose' : Chooser I α} (hsame : ∀ c, choose f.threads c = choose' m.threads c) (i : Nat)
    (visit : Visit) {r : I.Request} {next next' : I.Answer r → Program I α}
    (hnext : ∀ a, (next a).Detours Refuses (next' a)) :
    (f.serve choose i visit r next).Detours Refuses (m.serve choose' i visit r next') := by
  unfold Machine.serve
  rw [h.shared]
  cases Server.serve visit m.shared r with
  | answers s signal a =>
    have hthreads := Phase.Detours.together.deliver h.threads hsame signal
    exact ⟨rfl, h.clock, h.tickets, forall₂_set hthreads (.running (hnext a)) i⟩
  | sleeps s c deadline =>
    refine ⟨rfl, h.clock, congrArg (· + 1) h.tickets, ?_⟩
    dsimp only
    rw [h.tickets]
    exact forall₂_set h.threads (.asleep _ _ _ _ hnext) i
  | runs s p =>
    exact ⟨rfl, h.clock, h.tickets, forall₂_set h.threads (.running (.after p hnext)) i⟩

namespace History.Detours

variable {f m : History I σ α} {i : Nat}

/-- Both go on with the same request. -/
theorem advance (h : f.Detours Refuses m) {waker waker' : Machine.Waker I α}
    (hsame : ∀ c, waker.choose f.machine.threads c = waker'.choose m.machine.threads c)
    {x y : Phase I α} (hx : f.machine.threads[i]? = some x) (hy : m.machine.threads[i]? = some y)
    {visit : Visit} {r : I.Request} {next next' : I.Answer r → Program I α}
    (hasks : x.Asks f.machine.clock visit r next) (hasks' : y.Asks m.machine.clock visit r next')
    (hnext : ∀ a, (next a).Detours Refuses (next' a)) :
    (f.step (.advance waker i)).Detours Refuses (m.step (.advance waker' i)) := by
  obtain ⟨hevent, hserve⟩ := Machine.advance_of_asks hx hasks waker.choose
  obtain ⟨hevent', hserve'⟩ := Machine.advance_of_asks hy hasks' waker'.choose
  simp only [History.step, hevent, hserve, hevent', hserve', Option.toList_some]
  refine ⟨?_, h.machine.serve hsame i visit hnext⟩
  rw [h.machine.shared]
  exact .both _ h.trace

/-- **A detour is refused, or the thread goes astray.** -/
theorem detour (hharmless : Harmless σ Refuses) (h : f.Detours Refuses m)
    (waker : Machine.Waker I α) {x : Phase I α} {visit : Visit} {r : I.Request}
    {next : I.Answer r → Program I α} {q : Program I α} (hx : f.machine.threads[i]? = some x)
    (hasks : x.Asks f.machine.clock visit r next)
    (hy : m.machine.threads[i]? = some (.running q)) (hrefuses : ∃ a, Refuses r a)
    (hnext : ∀ a, Refuses r a → (next a).Detours Refuses q) :
    f.machine.Strays Refuses m.machine i ∨
      (f.step (.advance waker i)).Detours Refuses m ∧
        ∃ a, Refuses r a ∧ (f.step (.advance waker i)).machine.threads =
          f.machine.threads.set i (.running (next a)) := by
  by_cases hrefused : ∃ a, Refuses r a ∧
      (Server.serve visit f.machine.shared r).answer? = some a
  · obtain ⟨a, ha, hanswer⟩ := hrefused
    obtain ⟨hevent, hserve⟩ := Machine.advance_of_asks hx hasks waker.choose
    cases hserved : Server.serve visit f.machine.shared r with
    | answers s signal answer =>
      rw [hserved] at hanswer
      obtain rfl : answer = a := Option.some_inj.mp hanswer
      obtain ⟨rfl, rfl⟩ := hharmless _ _ _ _ _ _ hserved ha
      simp only [History.step, hevent, hserve, Machine.serve, hserved, Machine.deliver, Event.of]
      refine .inr ⟨⟨.refused _ _ ha h.trace, h.machine.shared, h.machine.clock, h.machine.tickets,
        forall₂_set_left h.machine.threads hy (.running (hnext answer ha))⟩, answer, ha, rfl⟩
    -- only an answer can be a refusal, so the other two are ruled out
    | sleeps s c deadline =>
      rw [hserved] at hanswer
      cases hanswer
    | runs s p =>
      rw [hserved] at hanswer
      cases hanswer
  · exact .inl ⟨x, visit, r, next, q, hx, hasks, hy, hrefuses, hnext,
      fun a ha hanswer => hrefused ⟨a, ha, hanswer⟩⟩

/-- Both make the same request, to be served later. -/
theorem enter (h : f.Detours Refuses m) {r : I.Request} {next next' : I.Answer r → Program I α}
    (hx : f.machine.threads[i]? = some (.running (.ask r next)))
    (hy : m.machine.threads[i]? = some (.running (.ask r next')))
    (hnext : ∀ a, (next a).Detours Refuses (next' a)) :
    (f.step (.enter i)).Detours Refuses (m.step (.enter i)) := by
  have hasking := Phase.Detours.asking f.machine.clock false hnext
  refine ⟨h.trace, h.machine.shared, h.machine.clock, h.machine.tickets, ?_⟩
  simp only [History.step, Machine.enter, modify_eq_set hx, modify_eq_set hy, ← h.machine.clock]
  exact forall₂_set h.machine.threads hasking i

/-- The detour is asked for, to be served later. -/
theorem enter_detour (h : f.Detours Refuses m) {r : I.Request} {next : I.Answer r → Program I α}
    {q : Program I α} (hx : f.machine.threads[i]? = some (.running (.ask r next)))
    (hy : m.machine.threads[i]? = some (.running q)) (hrefuses : ∃ a, Refuses r a)
    (hnext : ∀ a, Refuses r a → (next a).Detours Refuses q) :
    (f.step (.enter i)).Detours Refuses m := by
  have hdetouring := Phase.Detours.detouring f.machine.clock hrefuses hnext
  refine ⟨h.trace, h.machine.shared, h.machine.clock, h.machine.tickets, ?_⟩
  simp only [History.step, Machine.enter, modify_eq_set hx]
  exact forall₂_set_left h.machine.threads hy hdetouring

/-- A sleep ends for both. -/
theorem wake (h : f.Detours Refuses m) (i : Nat) :
    (f.step (.wake i)).Detours Refuses (m.step (.wake i)) :=
  ⟨h.trace, h.machine.shared, h.machine.clock, h.machine.tickets,
    forall₂_modify h.machine.threads (fun _ _ hxy => Phase.Detours.together.wake hxy) i⟩

/-- Time passes for both. -/
theorem tick (h : f.Detours Refuses m) (d : Nat) :
    (f.step (.tick d)).Detours Refuses (m.step (.tick d)) :=
  ⟨h.trace, h.machine.shared, congrArg (· + d) h.machine.clock, h.machine.tickets,
    h.machine.threads⟩

/-- **Whatever is done with detours is done without them**, by at most one move, unless the
thread that moves goes astray. -/
theorem forward (hharmless : Harmless σ Refuses) (h : f.Detours Refuses m)
    (move : Machine.Move I α) :
    (f.step move).Detours Refuses m ∨ (∃ move', (f.step move).Detours Refuses (m.step move')) ∨
      ∃ waker i, move = .advance waker i ∧ f.machine.Strays Refuses m.machine i := by
  cases move with
  | wake i => exact .inr (.inl ⟨.wake i, h.wake i⟩)
  | tick d => exact .inr (.inl ⟨.tick d, h.tick d⟩)
  | enter i =>
    rcases f.machine.enter_cases i with hstay | ⟨r, next, hx, -⟩
    · simp only [History.step, hstay]
      exact .inl h
    · obtain ⟨y, hy, hxy⟩ := exists_right_of_getElem? h.machine.threads hx
      cases hxy with
      | running hp =>
        cases hp with
        | ask hnext => exact .inr (.inl ⟨.enter i, h.enter hx hy hnext⟩)
        | detour hrefuses hnext => exact .inl (h.enter_detour hx hy hrefuses hnext)
  | advance waker i =>
    rcases f.machine.advance_cases waker.choose i with ⟨hevent, hstay⟩ |
      ⟨x, visit, r, next, hx, hasks, -, -⟩
    · simp only [History.step, hevent, hstay, Option.toList_none, List.append_nil]
      exact .inl h
    · obtain ⟨y, hy, hxy⟩ := exists_right_of_getElem? h.machine.threads hx
      -- a waker may choose by what the threads have to do, so its choice is imitated
      have hsame c :=
        (waker.imitating_eq (Phase.Detours.together.getElem?_ticket? h.machine.threads) c).symm
      have hclock := h.machine.clock
      cases hasks with
      | running =>
        cases hxy with
        | running hp =>
          cases hp with
          | ask hnext =>
            refine .inr (.inl ⟨_, h.advance hsame hx hy (.running r next) ?_ hnext⟩)
            rw [hclock]
            exact .running r _
          | detour hrefuses hnext =>
            rcases h.detour hharmless waker hx (.running r next) hy hrefuses hnext with
              hstrays | ⟨hdetour, -⟩
            · exact .inr (.inr ⟨waker, i, rfl, hstrays⟩)
            · exact .inl hdetour
      | asking =>
        cases hxy with
        | detouring _ hrefuses hnext =>
          rcases h.detour hharmless waker hx (.asking r next _ _) hy hrefuses hnext with
            hstrays | ⟨hdetour, -⟩
          · exact .inr (.inr ⟨waker, i, rfl, hstrays⟩)
          · exact .inl hdetour
        | asking _ _ hnext =>
          refine .inr (.inl ⟨_, h.advance hsame hx hy (.asking r next _ _) ?_ hnext⟩)
          rw [hclock]
          exact .asking r _ _ _

/-- **A thread takes its detours** before it goes on, unless it goes astray; the other threads
stay where they are. -/
theorem take_detours (hharmless : Harmless σ Refuses) {q : Program I α}
    (hy : m.machine.threads[i]? = some (.running q)) {p : Program I α}
    (hp : p.Detours Refuses q) : ∀ {f : History I σ α}, f.Detours Refuses m →
    f.machine.threads[i]? = some (.running p) →
    ∃ moves, (f.play moves).Detours Refuses m ∧
      ((f.play moves).machine.Strays Refuses m.machine i ∨
        (∃ a, q = .done a ∧ (f.play moves).machine.threads[i]? = some (.running (.done a))) ∨
        ∃ (r : I.Request) (next next' : I.Answer r → Program I α), q = .ask r next' ∧
          (∀ a, (next a).Detours Refuses (next' a)) ∧
          (f.play moves).machine.threads[i]? = some (.running (.ask r next))) := by
  -- a detour brings the thread nearer to where it goes on, and there are finitely many
  induction hp with
  | done a =>
    intro f h hx
    exact ⟨[], h, .inr (.inl ⟨a, rfl, hx⟩)⟩
  | ask hnext =>
    intro f h hx
    exact ⟨[], h, .inr (.inr ⟨_, _, _, rfl, hnext, hx⟩)⟩
  | detour hrefuses hnext ih =>
    intro f h hx
    rcases h.detour hharmless .longest hx (.running _ _) hy hrefuses hnext with
      hstrays | ⟨hdetour, a, ha, hset⟩
    · exact ⟨[], h, .inl hstrays⟩
    · obtain ⟨moves, hmoves⟩ := ih a ha hy hdetour (by rw [hset, getElem?_set_of_some hx])
      exact ⟨.advance .longest i :: moves, hmoves⟩

/-- It may have asked for its first detour already. -/
theorem take_detours_at (hharmless : Harmless σ Refuses) (h : f.Detours Refuses m)
    {q : Program I α} (hy : m.machine.threads[i]? = some (.running q)) :
    ∃ moves, (f.play moves).Detours Refuses m ∧
      ((f.play moves).machine.Strays Refuses m.machine i ∨
        (∃ a, q = .done a ∧ (f.play moves).machine.threads[i]? = some (.running (.done a))) ∨
        ∃ (r : I.Request) (next next' : I.Answer r → Program I α), q = .ask r next' ∧
          (∀ a, (next a).Detours Refuses (next' a)) ∧
          (f.play moves).machine.threads[i]? = some (.running (.ask r next))) := by
  obtain ⟨x, hx, hxy⟩ := exists_left_of_getElem? h.machine.threads hy
  cases hxy with
  | running hp => exact take_detours hharmless hy hp h hx
  | detouring _ hrefuses hnext =>
    rcases h.detour hharmless .longest hx (.asking _ _ _ _) hy hrefuses hnext with
      hstrays | ⟨hdetour, a, ha, hset⟩
    · exact ⟨[], h, .inl hstrays⟩
    · obtain ⟨moves, hmoves⟩ := take_detours hharmless hy (hnext a ha) hdetour
        (by rw [hset, getElem?_set_of_some hx])
      exact ⟨.advance .longest i :: moves, hmoves⟩

/-- **Whatever is done without detours is done with them**, once they are taken, unless a
thread goes astray. -/
theorem backward (hharmless : Harmless σ Refuses) (h : f.Detours Refuses m)
    (move' : Machine.Move I α) :
    ∃ moves, (f.play moves).Detours Refuses (m.step move') ∨
      (f.play moves).Detours Refuses m ∧ ∃ i, (f.play moves).machine.Strays Refuses m.machine i := by
  cases move' with
  | wake i => exact ⟨[.wake i], .inl (h.wake i)⟩
  | tick d => exact ⟨[.tick d], .inl (h.tick d)⟩
  | enter i =>
    rcases m.machine.enter_cases i with hstay | ⟨r, next', hy, -⟩
    · refine ⟨[], .inl ?_⟩
      simp only [History.step, hstay]
      exact h
    · obtain ⟨moves, hdetours, hstrays | ⟨a, hdone, -⟩ | ⟨r', next, _, hask, hnext, hx⟩⟩ :=
        h.take_detours_at hharmless hy
      · exact ⟨moves, .inr ⟨hdetours, i, hstrays⟩⟩
      · cases hdone
      · cases hask
        refine ⟨moves ++ [.enter i], .inl ?_⟩
        rw [play_append]
        exact hdetours.enter hx hy hnext
  | advance waker' i =>
    rcases m.machine.advance_cases waker'.choose i with ⟨hevent, hstay⟩ |
      ⟨y, visit, r, next', hy, hasks', -, -⟩
    · refine ⟨[], .inl ?_⟩
      simp only [History.step, hevent, hstay, Option.toList_none, List.append_nil]
      exact h
    · obtain ⟨x, hx, hxy⟩ := exists_left_of_getElem? h.machine.threads hy
      cases hasks' with
      | running =>
        obtain ⟨moves, hdetours, hstrays | ⟨a, hdone, -⟩ | ⟨r', next, _, hask, hnext, hx'⟩⟩ :=
          h.take_detours_at hharmless hy
        · exact ⟨moves, .inr ⟨hdetours, i, hstrays⟩⟩
        · cases hdone
        · cases hask
          have hsame := waker'.imitating_eq fun i c =>
            (Phase.Detours.together.getElem?_ticket? hdetours.machine.threads i c).symm
          have hasks : Phase.Asks (f.play moves).machine.clock (.running (.ask r next))
              ⟨m.machine.clock, m.machine.clock, false⟩ r next := by
            rw [hdetours.machine.clock]
            exact .running r next
          have hadvance := hdetours.advance hsame hx' hy hasks (.running r next') hnext
          let waker : Machine.Waker I α := .imitating (waker'.choose m.machine.threads)
          refine ⟨moves ++ [.advance waker i], .inl ?_⟩
          rw [play_append]
          exact hadvance
      | asking =>
        cases hxy with
        | asking _ _ hnext =>
          have hsame := waker'.imitating_eq fun i c =>
            (Phase.Detours.together.getElem?_ticket? h.machine.threads i c).symm
          have hclock := h.machine.clock
          refine ⟨[.advance _ i], .inl (h.advance hsame hx hy ?_ (.asking r next' _ _) hnext)⟩
          rw [← hclock]
          exact .asking r _ _ _

/-- **A thread that has its result without detours comes to it with them**, unless it goes
astray. -/
theorem exists_result? (hharmless : Harmless σ Refuses) (h : f.Detours Refuses m) {a : α}
    (ha : m.machine.result? i = some a) :
    ∃ moves, (f.play moves).Detours Refuses m ∧
      ((f.play moves).machine.result? i = some a ∨
        (f.play moves).machine.Strays Refuses m.machine i) := by
  obtain ⟨y, hy, hresult⟩ := Option.bind_eq_some_iff.mp ha
  cases y with
  | running q =>
    obtain ⟨moves, hdetours, hstrays | ⟨b, rfl, hx⟩ | ⟨r, next, next', rfl, -, -⟩⟩ :=
      h.take_detours_at hharmless hy
    · exact ⟨moves, hdetours, .inr hstrays⟩
    · refine ⟨moves, hdetours, .inl ?_⟩
      rw [Machine.result?, hx, Option.bind_some]
      exact hresult
    · cases hresult
  | asking | asleep => cases hresult

end History.Detours

/-! ## Runs -/

/-- **How a run with detours compares to one without**: they differ in the detours only, or a
thread has gone astray, up to which they did. -/
inductive Machine.Apace (Refuses : (r : I.Request) → I.Answer r → Prop) (f m : Machine I σ α) :
    List (Move I α) → List (Move I α) → Prop
  | refused {schedule schedule' : List (Move I α)} :
    (f.run schedule).Detours Refuses (m.run schedule') → Apace Refuses f m schedule schedule'
  | astray {earlier later earlier' later' : List (Move I α)} {i : Nat} :
    (f.run earlier).Detours Refuses (m.run earlier') →
    (f.run earlier).machine.Strays Refuses (m.run earlier').machine i →
    Apace Refuses f m (earlier ++ later) (earlier' ++ later')

namespace Machine

variable {f m : Machine I σ α}

/-- **Every run with detours is a run without them.** -/
theorem Detours.forward (hharmless : Harmless σ Refuses) (h : f.Detours Refuses m) :
    ∃ translate : List (Move I α) → List (Move I α), InStep translate ∧
      ∀ schedule, f.Apace Refuses m schedule (translate schedule) := by
  refine exists_inStep (f.Apace Refuses m) [] (.refused ⟨.start, h⟩) ?_
  rintro schedule schedule' move (hrelated | @⟨earlier, later, earlier', later', i, hrelated, hstrays⟩)
  · rcases hrelated.forward hharmless move with hstay | ⟨move', hmove⟩ | ⟨waker, i, rfl, hstrays⟩
    · refine ⟨[], .refused ?_⟩
      rwa [List.append_nil, run_concat]
    · refine ⟨[move'], .refused ?_⟩
      rwa [run_concat, run_concat]
    · exact ⟨[], .astray hrelated hstrays⟩
  · refine ⟨[], ?_⟩
    rw [List.append_assoc, List.append_assoc]
    exact .astray hrelated hstrays

/-- **Every run without detours is one with them.** -/
theorem Detours.backward (hharmless : Harmless σ Refuses) (h : f.Detours Refuses m) :
    ∃ translate : List (Move I α) → List (Move I α), InStep translate ∧
      ∀ schedule', f.Apace Refuses m (translate schedule') schedule' := by
  refine exists_inStep (fun schedule' schedule => f.Apace Refuses m schedule schedule') []
    (.refused ⟨.start, h⟩) ?_
  rintro schedule' schedule move' (hrelated | @⟨earlier, later, earlier', later', i, hrelated, hstrays⟩)
  · obtain ⟨moves, hmoved | ⟨hmoved, i, hstrays⟩⟩ := hrelated.backward hharmless move'
    · refine ⟨moves, .refused ?_⟩
      rwa [run_concat, ← play_run]
    · refine ⟨moves, ?_⟩
      rw [play_run] at hmoved hstrays
      -- it goes astray at the end of the run so far, and nothing comes after
      have hapace : f.Apace Refuses m ((schedule ++ moves) ++ []) (schedule' ++ [move']) :=
        .astray hmoved hstrays
      rwa [List.append_nil] at hapace
  · refine ⟨[], ?_⟩
    rw [List.append_assoc, List.append_assoc]
    exact .astray hrelated hstrays

end Machine

end MessageIntake
