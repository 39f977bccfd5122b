import MessageIntake.Proofs.Machine.StandIn

/-!
# Two requests that are waited for alike

Two requests may be waited for alike without being answered alike: wherever the
one sleeps the other does, for the same and as long, and where they do not sleep
both are answered, each in its own way. Then a thread may wait with either, and
nobody can tell with which until it is answered: every schedule of the machine in
which it asks the one is, move by move, a schedule of the machine in which it
asks the other, and both are answered at the same move, at the same visit and in
the same state (`Machine.Parts.exists_course`). What happens after that may differ.
-/

namespace MessageIntake

variable {I : Interface} {σ α : Type}

/-! ## Lists that differ in one place -/

/-- Threads that are the same in both but for thread `i`, which is as `P` says. -/
def DifferAt (P : Phase I α → Phase I α → Prop) (i : Nat) (xs ys : List (Phase I α)) : Prop :=
  ∃ p q, P p q ∧ xs[i]? = some p ∧ ys = xs.set i q

namespace DifferAt

variable {P : Phase I α → Phase I α → Prop} {xs ys : List (Phase I α)} {i j : Nat}
  {p q : Phase I α}

theorem flip (h : DifferAt P i xs ys) : DifferAt (flip P) i ys xs := by
  obtain ⟨p, q, hpq, hp, rfl⟩ := h
  refine ⟨q, p, hpq, getElem?_set_of_some hp q, ?_⟩
  rw [List.set_set, set_eq_self hp]

theorem mono {Q : Phase I α → Phase I α → Prop} (h : DifferAt P i xs ys)
    (hPQ : ∀ p q, P p q → Q p q) : DifferAt Q i xs ys := by
  obtain ⟨p, q, hpq, hp, hset⟩ := h
  exact ⟨p, q, hPQ p q hpq, hp, hset⟩

/-- Where they differ. -/
theorem here (h : DifferAt P i xs ys) : ∃ p q, P p q ∧ xs[i]? = some p ∧ ys[i]? = some q := by
  obtain ⟨p, q, hpq, hp, rfl⟩ := h
  exact ⟨p, q, hpq, hp, getElem?_set_of_some hp q⟩

theorem elsewhere (h : DifferAt P i xs ys) (hij : i ≠ j) : ys[j]? = xs[j]? := by
  obtain ⟨p, q, -, -, rfl⟩ := h
  exact List.getElem?_set_ne hij

/-- A change of the thread in which they differ. -/
theorem set (h : DifferAt P i xs ys) (hpq : P p q) : DifferAt P i (xs.set i p) (ys.set i q) := by
  obtain ⟨x, y, -, hx, rfl⟩ := h
  exact ⟨p, q, hpq, getElem?_set_of_some hx p, by rw [List.set_set, List.set_set]⟩

/-- A change of any other thread, made in both. -/
theorem set_other (h : DifferAt P i xs ys) (hij : i ≠ j) (phase : Phase I α) :
    DifferAt P i (xs.set j phase) (ys.set j phase) := by
  obtain ⟨p, q, hpq, hp, rfl⟩ := h
  refine ⟨p, q, hpq, ?_, List.set_comm _ _ hij⟩
  rw [List.getElem?_set_ne hij.symm, hp]

/-- The same change of every thread, in both. -/
theorem map {f : Phase I α → Phase I α} (h : DifferAt P i xs ys)
    (hf : ∀ p q, P p q → P (f p) (f q)) : DifferAt P i (xs.map f) (ys.map f) := by
  obtain ⟨p, q, hpq, hp, rfl⟩ := h
  exact ⟨f p, f q, hf p q hpq, by rw [List.getElem?_map, hp]; rfl, List.map_set⟩

/-- The same change of one thread, in both. -/
theorem modify {f : Phase I α → Phase I α} (h : DifferAt P i xs ys)
    (hf : ∀ p q, P p q → P (f p) (f q)) (j : Nat) :
    DifferAt P i (xs.modify j f) (ys.modify j f) := by
  obtain ⟨p, q, hpq, hp, rfl⟩ := h
  by_cases hij : i = j
  · subst hij
    refine ⟨f p, f q, hf p q hpq, by simp [hp], List.ext_getElem? fun k => ?_⟩
    by_cases hk : i = k <;> simp [List.getElem?_set, hk]
  · refine ⟨p, q, hpq, by simp [hp, Ne.symm hij], List.ext_getElem? fun k => ?_⟩
    by_cases hk : i = k
    · subst hk
      simp [List.getElem?_set, Ne.symm hij]
    · simp [List.getElem?_modify, hk]

variable (hP : Phase.Together P)

include hP

/-- The same threads sleep. -/
theorem getElem?_ticket? (h : DifferAt P i xs ys) (j : Nat) (c : Condition) :
    xs[j]?.bind (Phase.ticket? c) = ys[j]?.bind (Phase.ticket? c) := by
  by_cases hij : i = j
  · subst hij
    obtain ⟨p, q, hpq, hp, hq⟩ := h.here
    rw [hp, hq]
    exact hP.ticket?_eq hpq c
  · rw [h.elsewhere hij]

/-- A signal reaches the same threads. -/
theorem deliver (h : DifferAt P i xs ys) {choose choose' : Machine.Chooser I α}
    (hsame : ∀ c, choose xs c = choose' ys c) (signal : Signal) :
    DifferAt P i (Machine.deliver choose signal xs) (Machine.deliver choose' signal ys) := by
  cases signal with
  | nobody => exact h
  | one c =>
    simp only [Machine.deliver, hsame]
    cases choose' ys c with
    | none => exact h
    | some j => exact h.modify (fun _ _ hpq => hP.wake hpq) j
  | all c =>
    refine h.map fun p q hpq => ?_
    rw [hP.ticket?_eq hpq c]
    split
    · exact hP.wake hpq
    · exact hpq

end DifferAt

/-! ## What parts two runs -/

/-- **Two requests that are waited for alike.** -/
structure Parting (I : Interface) (σ : Type) [Server I σ] where
  left : I.Request
  right : I.Request
  /-- The answer to each, with the state that it leaves. -/
  Decision : Visit → σ → I.Answer left × σ → I.Answer right × σ → Prop
  serve_cases (visit : Visit) (s : σ) :
    (∃ s' c deadline, Server.serve visit s left = .sleeps s' c deadline ∧
        Server.serve visit s right = .sleeps s' c deadline) ∨
      ∃ s₁ w₁ a₁ s₂ w₂ a₂, Server.serve visit s left = .answers s₁ w₁ a₁ ∧
        Server.serve visit s right = .answers s₂ w₂ a₂ ∧ Decision visit s (a₁, s₁) (a₂, s₂)

variable [Server I σ]

/-- The same two, the other way round. -/
def Parting.symm (x : Parting I σ) : Parting I σ where
  left := x.right
  right := x.left
  Decision visit s answered answered' := x.Decision visit s answered' answered
  serve_cases visit s := by
    rcases x.serve_cases visit s with ⟨s', c, deadline, hleft, hright⟩ |
      ⟨s₁, w₁, a₁, s₂, w₂, a₂, hleft, hright, hdecision⟩
    · exact .inl ⟨s', c, deadline, hright, hleft⟩
    · exact .inr ⟨s₂, w₂, a₂, s₁, w₁, a₁, hright, hleft, hdecision⟩

variable (x : Parting I σ)

/-- **A thread that waits with the one**, beside one that waits with the other, at the
same stage. -/
inductive Phase.Parts (next : I.Answer x.left → Program I α)
    (next' : I.Answer x.right → Program I α) : Phase I α → Phase I α → Prop
  | running : Parts next next' (.running (.ask x.left next)) (.running (.ask x.right next'))
  | asking (started : Instant) (waited : Bool) :
    Parts next next' (.asking x.left next started waited) (.asking x.right next' started waited)
  | asleep (started : Instant) (c : Condition) (deadline : Option Instant) (ticket : Nat) :
    Parts next next' (.asleep x.left next started c deadline ticket)
      (.asleep x.right next' started c deadline ticket)

/-- The same event, or a pass of each that leaves its thread asleep. -/
inductive Event.Parts : Event I σ → Event I σ → Prop
  | same (e : Event I σ) : Parts e e
  | sleeps (thread : Nat) (before after : σ) :
    Parts ⟨thread, before, x.left, none, after⟩ ⟨thread, before, x.right, none, after⟩

/-- **Machines that differ in one thread only**, which waits with the one in the first
and with the other in the second. -/
structure Machine.Parts (i : Nat) (next : I.Answer x.left → Program I α)
    (next' : I.Answer x.right → Program I α) (m m' : Machine I σ α) : Prop where
  shared : m.shared = m'.shared
  clock : m.clock = m'.clock
  tickets : m.tickets = m'.tickets
  threads : DifferAt (Phase.Parts x next next') i m.threads m'.threads

/-- **Runs that differ in one thread only.** -/
structure History.Parts (i : Nat) (next : I.Answer x.left → Program I α)
    (next' : I.Answer x.right → Program I α) (h h' : History I σ α) : Prop where
  trace : List.Forall₂ (Event.Parts x) h.trace h'.trace
  machine : h.machine.Parts x i next next' h'.machine

variable {x} {i : Nat} {next : I.Answer x.left → Program I α}
  {next' : I.Answer x.right → Program I α}

namespace Phase.Parts

variable {p q : Phase I α}

theorem together : Phase.Together (Phase.Parts x next next') where
  ticket?_eq h c := by cases h <;> rfl
  wake h := by
    cases h with
    | running => exact .running
    | asking started waited => exact .asking started waited
    | asleep started c deadline ticket => exact .asking started true

/-- Both make their request, or neither has one to make. -/
theorem enter (h : Phase.Parts x next next' p q) (now : Instant) :
    Phase.Parts x next next' (p.enter now) (q.enter now) := by
  cases h with
  | running => exact .asking now false
  | asking started waited => exact .asking started waited
  | asleep started c deadline ticket => exact .asleep started c deadline ticket

/-- Both ask, at the same visit, or neither does. -/
theorem asks (h : Phase.Parts x next next' p q) (now : Instant) :
    ((∀ visit r k, ¬ p.Asks now visit r k) ∧ ∀ visit r k, ¬ q.Asks now visit r k) ∨
      ∃ visit, p.Asks now visit x.left next ∧ q.Asks now visit x.right next' := by
  cases h with
  | running => exact .inr ⟨_, .running _ _, .running _ _⟩
  | asking started waited => exact .inr ⟨_, .asking _ _ _ _, .asking _ _ _ _⟩
  | asleep => exact .inl ⟨nofun, nofun⟩

theorem symm (h : Phase.Parts x next next' p q) : Phase.Parts x.symm next' next q p := by
  cases h with
  | running => exact .running
  | asking started waited => exact .asking started waited
  | asleep started c deadline ticket => exact .asleep started c deadline ticket

end Phase.Parts

namespace Machine.Parts

variable {m m' : Machine I σ α}

theorem symm (h : m.Parts x i next next' m') : m'.Parts x.symm i next' next m :=
  ⟨h.shared.symm, h.clock.symm, h.tickets.symm, h.threads.flip.mono fun _ _ hpq => hpq.symm⟩

/-- **Any other thread is served the same in both.** -/
theorem serve_other (h : m.Parts x i next next' m') {choose choose' : Chooser I α}
    (hsame : ∀ c, choose m.threads c = choose' m'.threads c) {j : Nat} (hij : i ≠ j) (visit : Visit)
    (r : I.Request) (k : I.Answer r → Program I α) :
    (m.serve choose j visit r k).Parts x i next next' (m'.serve choose' j visit r k) := by
  unfold Machine.serve
  rw [h.shared]
  cases Server.serve visit m'.shared r with
  | answers s signal a =>
    have hthreads := h.threads.deliver Phase.Parts.together hsame signal
    exact ⟨rfl, h.clock, h.tickets, hthreads.set_other hij _⟩
  | sleeps s c deadline =>
    refine ⟨rfl, h.clock, congrArg (· + 1) h.tickets, ?_⟩
    dsimp only
    rw [h.tickets]
    exact h.threads.set_other hij _
  | runs s p => exact ⟨rfl, h.clock, h.tickets, h.threads.set_other hij _⟩

/-- **The thread that waits sleeps on in both**, if it is not answered. -/
theorem serve_here (h : m.Parts x i next next' m') (choose choose' : Chooser I α) (visit : Visit)
    {s : σ} {c : Condition} {deadline : Option Instant}
    (hleft : Server.serve visit m'.shared x.left = .sleeps s c deadline)
    (hright : Server.serve visit m'.shared x.right = .sleeps s c deadline) :
    (m.serve choose i visit x.left next).Parts x i next next'
      (m'.serve choose' i visit x.right next') := by
  unfold Machine.serve
  rw [h.shared, hleft, hright]
  refine ⟨rfl, h.clock, congrArg (· + 1) h.tickets, ?_⟩
  dsimp only
  rw [h.tickets]
  exact h.threads.set (.asleep _ _ _ _)

end Machine.Parts

/-! ## Runs -/

/-- **Both are answered now**, the thread that waits at the same visit and in the same
state. -/
structure Machine.Decides (x : Parting I σ) (i : Nat) (m m' : Machine I σ α) (visit : Visit)
    (answered : I.Answer x.left × σ) (answered' : I.Answer x.right × σ) : Prop where
  shared : m.shared = m'.shared
  asks : m.asks? i = some (visit, x.left)
  asks' : m'.asks? i = some (visit, x.right)
  event : m.event? i = some ⟨i, m.shared, x.left, some answered.1, answered.2⟩
  event' : m'.event? i = some ⟨i, m.shared, x.right, some answered'.1, answered'.2⟩
  decision : x.Decision visit m.shared answered answered'

namespace History.Parts

variable {h h' : History I σ α}

/-- A move of another thread. -/
theorem advance_other (hparts : h.Parts x i next next' h') {waker waker' : Machine.Waker I α}
    (hsame : ∀ c, waker.choose h.machine.threads c = waker'.choose h'.machine.threads c) {j : Nat}
    (hij : i ≠ j) : (h.step (.advance waker j)).Parts x i next next' (h'.step (.advance waker' j)) := by
  obtain ⟨htrace, hmachine⟩ := hparts
  have hj : h'.machine.threads[j]? = h.machine.threads[j]? := hmachine.threads.elsewhere hij
  by_cases hasks : ∃ p ∈ h.machine.threads[j]?, ∃ visit r k, p.Asks h.machine.clock visit r k
  · obtain ⟨p, hp, visit, r, k, hpasks⟩ := hasks
    obtain ⟨hevent, hserve⟩ := Machine.advance_of_asks hp hpasks waker.choose
    rw [hmachine.clock] at hpasks
    obtain ⟨hevent', hserve'⟩ := Machine.advance_of_asks (hj.trans hp) hpasks waker'.choose
    simp only [History.step, hevent, hserve, hevent', hserve', Option.toList_some]
    refine ⟨?_, hmachine.serve_other hsame hij visit r k⟩
    rw [hmachine.shared]
    exact List.rel_append htrace (.cons (.same _) .nil)
  · have hstays : ∀ p ∈ h.machine.threads[j]?, ∀ visit r k,
        ¬ p.Asks h.machine.clock visit r k :=
      fun p hp visit r k hpasks => hasks ⟨p, hp, visit, r, k, hpasks⟩
    obtain ⟨hevent, hstay⟩ := Machine.advance_of_not_asks hstays waker.choose
    rw [← hj, hmachine.clock] at hstays
    obtain ⟨hevent', hstay'⟩ := Machine.advance_of_not_asks hstays waker'.choose
    simp only [History.step, hevent, hstay, hevent', hstay', Option.toList_none, List.append_nil]
    exact ⟨htrace, hmachine⟩

/-- **A move of the thread that waits**: it sleeps on in both, or it is answered in
both. -/
theorem advance_here (hparts : h.Parts x i next next' h') (waker waker' : Machine.Waker I α) :
    (h.step (.advance waker i)).Parts x i next next' (h'.step (.advance waker' i)) ∨
      ∃ visit answered answered', h.machine.Decides x i h'.machine visit answered answered' := by
  obtain ⟨htrace, hmachine⟩ := hparts
  obtain ⟨p, q, hpq, hp, hq⟩ := hmachine.threads.here
  rcases hpq.asks h.machine.clock with ⟨hnone, hnone'⟩ | ⟨visit, hasks, hasks'⟩
  · have hstays : ∀ phase ∈ h.machine.threads[i]?, ∀ visit r k,
        ¬ phase.Asks h.machine.clock visit r k := by
      rw [hp]
      rintro _ ⟨⟩
      exact hnone
    have hstays' : ∀ phase ∈ h'.machine.threads[i]?, ∀ visit r k,
        ¬ phase.Asks h'.machine.clock visit r k := by
      rw [hq, ← hmachine.clock]
      rintro _ ⟨⟩
      exact hnone'
    obtain ⟨hevent, hstay⟩ := Machine.advance_of_not_asks hstays waker.choose
    obtain ⟨hevent', hstay'⟩ := Machine.advance_of_not_asks hstays' waker'.choose
    simp only [History.step, hevent, hstay, hevent', hstay', Option.toList_none, List.append_nil]
    exact .inl ⟨htrace, hmachine⟩
  · obtain ⟨hevent, hserve⟩ := Machine.advance_of_asks hp hasks waker.choose
    rw [hmachine.clock] at hasks'
    obtain ⟨hevent', hserve'⟩ := Machine.advance_of_asks hq hasks' waker'.choose
    -- the two requests are served alike: both sleep, or the pass decides both
    rcases x.serve_cases visit h'.machine.shared with ⟨s, c, deadline, hleft, hright⟩ |
      ⟨s₁, w₁, a₁, s₂, w₂, a₂, hleft, hright, hdecision⟩
    · simp only [History.step, hevent, hserve, hevent', hserve', Option.toList_some]
      refine .inl ⟨List.rel_append htrace (.cons ?_ .nil),
        hmachine.serve_here waker.choose waker'.choose visit hleft hright⟩
      simp only [Event.of, hmachine.shared, hleft, hright]
      exact .sleeps _ _ _
    · refine .inr ⟨visit, (a₁, s₁), (a₂, s₂), hmachine.shared, hasks.asks? hp, hasks'.asks? hq,
        ?_, ?_, ?_⟩
      · rw [hevent, Event.of, hmachine.shared, hleft]
        rfl
      · rw [hevent', Event.of, hmachine.shared, hright]
        rfl
      · rw [hmachine.shared]
        exact hdecision

/-- **A move of the one is a move of the other**, until the thread that waits is
answered. -/
theorem exists_step (hparts : h.Parts x i next next' h') (move : Machine.Move I α) :
    ∃ move', Machine.Move.Same move move' ∧
      ((h.step move).Parts x i next next' (h'.step move') ∨
        ∃ waker waker', move = .advance waker i ∧ move' = .advance waker' i ∧
          ∃ visit answered answered',
            h.machine.Decides x i h'.machine visit answered answered') := by
  obtain ⟨move', hmove⟩ := Machine.Move.exists_agrees
    (hparts.machine.threads.getElem?_ticket? Phase.Parts.together) move
  refine ⟨move', hmove.same, ?_⟩
  cases hmove with
  | advance waker waker' j hsame =>
    by_cases hij : i = j
    · subst hij
      rcases hparts.advance_here waker waker' with hparts | hdecides
      · exact .inl hparts
      · exact .inr ⟨waker, waker', rfl, rfl, hdecides⟩
    · exact .inl (hparts.advance_other hsame hij)
  | enter j =>
    obtain ⟨htrace, hmachine⟩ := hparts
    have hthreads := hmachine.threads.modify (fun _ _ hpq => hpq.enter h.machine.clock) j
    refine .inl ⟨htrace, hmachine.shared, hmachine.clock, hmachine.tickets, ?_⟩
    simp only [step, Machine.enter, ← hmachine.clock]
    exact hthreads
  | wake j =>
    obtain ⟨htrace, hmachine⟩ := hparts
    exact .inl ⟨htrace, hmachine.shared, hmachine.clock, hmachine.tickets,
      hmachine.threads.modify (fun _ _ hpq => Phase.Parts.together.wake hpq) j⟩
  | tick d =>
    obtain ⟨htrace, hmachine⟩ := hparts
    exact .inl ⟨htrace, hmachine.shared, congrArg (· + d) hmachine.clock, hmachine.tickets,
      hmachine.threads⟩

end History.Parts

/-- **How two runs compare**: the thread waits in both, and they differ in nothing
else, or there was a move before which it was so and at which it was answered in both. -/
inductive Machine.Course (x : Parting I σ) (i : Nat) (next : I.Answer x.left → Program I α)
    (next' : I.Answer x.right → Program I α) (m m' : Machine I σ α) :
    List (Move I α) → List (Move I α) → Prop
  | waits {schedule schedule' : List (Move I α)} :
    (m.run schedule).Parts x i next next' (m'.run schedule') →
    Course x i next next' m m' schedule schedule'
  | decided {earlier earlier' later later' : List (Move I α)} {waker waker' : Waker I α}
    {visit : Visit} {answered : I.Answer x.left × σ} {answered' : I.Answer x.right × σ} :
    List.Forall₂ Move.Same earlier earlier' →
    (m.run earlier).Parts x i next next' (m'.run earlier') →
    (m.run earlier).machine.Decides x i (m'.run earlier').machine visit answered answered' →
    Course x i next next' m m' (earlier ++ .advance waker i :: later)
      (earlier' ++ .advance waker' i :: later')

variable {m m' : Machine I σ α}

theorem Machine.Course.step {schedule schedule' : List (Move I α)}
    (hsame : List.Forall₂ Move.Same schedule schedule')
    (h : Course x i next next' m m' schedule schedule') (move : Move I α) :
    ∃ move', Move.Same move move' ∧
      Course x i next next' m m' (schedule ++ [move]) (schedule' ++ [move']) := by
  cases h with
  | waits hparts =>
    obtain ⟨move', hmove, hparts' | ⟨waker, waker', rfl, rfl, visit, answered, answered', hdecides⟩⟩ :=
      hparts.exists_step move
    · refine ⟨move', hmove, .waits ?_⟩
      rwa [run_concat, run_concat]
    · exact ⟨_, hmove, .decided hsame hparts hdecides⟩
  -- what parts them is behind, and any move will do
  | decided hearlier hparts hdecides =>
    refine ⟨move, .refl move, ?_⟩
    rw [List.append_assoc, List.append_assoc, List.cons_append, List.cons_append]
    exact .decided hearlier hparts hdecides

/-- **Whoever waits with the one might wait with the other**: every schedule of the one
machine is one of the other, and they differ in that thread only until it is answered,
in both. -/
theorem Machine.Parts.exists_course (h : m.Parts x i next next' m') :
    ∃ translate : List (Move I α) → List (Move I α), InStep translate ∧ ∀ schedule,
      List.Forall₂ Move.Same schedule (translate schedule) ∧
        Course x i next next' m m' schedule (translate schedule) := by
  refine exists_inStep (fun schedule schedule' => List.Forall₂ Move.Same schedule schedule' ∧
    Course x i next next' m m' schedule schedule') [] ⟨.nil, .waits ⟨.nil, h⟩⟩ ?_
  rintro schedule schedule' move ⟨hsame, hcourse⟩
  obtain ⟨move', hmove, hcourse'⟩ := hcourse.step hsame move
  exact ⟨[move'], List.rel_append hsame (.cons hmove .nil), hcourse'⟩

end MessageIntake
