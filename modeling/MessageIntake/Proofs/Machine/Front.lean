import MessageIntake.Proofs.Machine.Beside
import MessageIntake.Proofs.Machine.Walk

/-!
# A program in front of another

A front asks what the program behind it asks, and idle requests in
between: those that are answered at once and leave the state as it is.
Threads that run fronts do the same as threads that run the programs
behind them: a schedule of the ones is translated into one of the others,
move by move, in which the same happens in the same order and with the
same states (`Machine.Fronts.forward`, `Machine.Fronts.backward`).

A front goes on before it has caught up with the program behind it, but
only by idle requests. There are finitely many of these at any point, so
every thread can be brought abreast of the one behind it.
-/

namespace MessageIntake

variable {I : Interface} {σ α β γ δ : Type}

namespace Program

/-- **A program in front of another**: it asks the same, pauses for idle
requests in between, and ends with a result that matches. -/
inductive Fronts (idle : I.Request → Bool) (Match : α → β → Prop) :
    Program I α → Program I β → Prop
  | done {a : α} {b : β} : Match a b → Fronts idle Match (.done a) (.done b)
  | ask {r : I.Request} {next : I.Answer r → Program I α} {next' : I.Answer r → Program I β} :
    (∀ a, Fronts idle Match (next a) (next' a)) → Fronts idle Match (.ask r next) (.ask r next')
  | pause {r : I.Request} {next : I.Answer r → Program I α} {q : Program I β} :
    idle r → (∀ a, Fronts idle Match (next a) q) → Fronts idle Match (.ask r next) q

/-- A front that does not pause before it goes on. -/
inductive Abreast (idle : I.Request → Bool) (Match : α → β → Prop) :
    Program I α → Program I β → Prop
  | done {a : α} {b : β} : Match a b → Abreast idle Match (.done a) (.done b)
  | ask {r : I.Request} {next : I.Answer r → Program I α} {next' : I.Answer r → Program I β} :
    (∀ a, (next a).Fronts idle Match (next' a)) → Abreast idle Match (.ask r next) (.ask r next')

namespace Fronts

variable {idle : I.Request → Bool} {Match : α → β → Prop} {Match' : γ → δ → Prop}
  {p : Program I α} {q : Program I β}

/-- Every program is a front of itself. -/
theorem refl (idle : I.Request → Bool) (p : Program I α) : p.Fronts idle (· = ·) p := by
  induction p with
  | done a => exact .done rfl
  | ask r next ih => exact .ask ih

/-- One front after another. -/
theorem bind {f : α → Program I γ} {g : β → Program I δ} (h : p.Fronts idle Match q)
    (hnext : ∀ a b, Match a b → (f a).Fronts idle Match' (g b)) :
    (p.bind f).Fronts idle Match' (q.bind g) := by
  induction h with
  | done h => exact hnext _ _ h
  | ask _ ih => exact .ask ih
  | pause hidle _ ih => exact .pause hidle ih

/-- The same program before fronts. -/
theorem after (p : Program I α) {f : α → Program I γ} {g : α → Program I δ}
    (hnext : ∀ a, (f a).Fronts idle Match' (g a)) :
    (p.bind f).Fronts idle Match' (p.bind g) := by
  refine (refl idle p).bind ?_
  rintro a _ rfl
  exact hnext a

/-- Idle requests before a front. -/
theorem before {p : Program I γ} (hp : p.Asks (idle ·)) {f : γ → Program I α}
    (hf : ∀ a, (f a).Fronts idle Match q) : (p.bind f).Fronts idle Match q := by
  induction hp with
  | done a => exact hf a
  | ask hidle _ ih => exact .pause hidle ih

/-- Fronts one after another. -/
theorem inTurn {ps : List (Program I α)} {qs : List (Program I β)}
    (h : List.Forall₂ (Program.Fronts idle Match) ps qs) :
    (Program.inTurn ps).Fronts idle (List.Forall₂ Match) (Program.inTurn qs) := by
  induction h with
  | nil => exact .done .nil
  | cons hp _ ih => exact hp.bind fun a b hab => ih.bind fun as bs hall => .done (.cons hab hall)

end Fronts

end Program

variable {idle : I.Request → Bool} {Match : α → β → Prop}

/-! ## Threads -/

/-- **A thread that runs a front**, beside one that runs the program behind
it: they make the same requests, sleep and are woken together, but for the
pauses. -/
inductive Phase.Fronts (idle : I.Request → Bool) (Match : α → β → Prop) :
    Phase I α → Phase I β → Prop
  | running {p : Program I α} {q : Program I β} :
    p.Fronts idle Match q → Fronts idle Match (.running p) (.running q)
  | pausing {r : I.Request} {next : I.Answer r → Program I α} {q : Program I β}
    (started : Instant) : idle r → (∀ a, (next a).Fronts idle Match q) →
    Fronts idle Match (.asking r next started false) (.running q)
  | asking {r : I.Request} {next : I.Answer r → Program I α} {next' : I.Answer r → Program I β}
    (started : Instant) (waited : Bool) : (∀ a, (next a).Fronts idle Match (next' a)) →
    Fronts idle Match (.asking r next started waited) (.asking r next' started waited)
  | asleep {r : I.Request} {next : I.Answer r → Program I α} {next' : I.Answer r → Program I β}
    (started : Instant) (c : Condition) (deadline : Option Instant) (ticket : Nat) :
    (∀ a, (next a).Fronts idle Match (next' a)) →
    Fronts idle Match (.asleep r next started c deadline ticket)
      (.asleep r next' started c deadline ticket)

namespace Phase.Fronts

variable {x : Phase I α} {y : Phase I β}

theorem wake (h : x.Fronts idle Match y) : x.wake.Fronts idle Match y.wake := by
  cases h with
  | running h => exact .running h
  | pausing started hidle h => exact .pausing started hidle h
  | asking started waited h => exact .asking started waited h
  | asleep started _ _ _ h => exact .asking started true h

theorem ticket?_eq (h : x.Fronts idle Match y) (c : Condition) : x.ticket? c = y.ticket? c := by
  cases h <;> rfl

theorem together : Phase.Together (Phase.Fronts (I := I) idle Match) := ⟨ticket?_eq, wake⟩

/-- A front ends with a result only if the program behind it has one. -/
theorem result? (h : x.Fronts idle Match y) {a : α} (ha : x.result? = some a) :
    ∃ b, y.result? = some b ∧ Match a b := by
  cases h with
  | running h =>
    cases h with
    | done h =>
      cases ha
      exact ⟨_, rfl, h⟩
    | ask | pause => cases ha
  | pausing | asking | asleep => cases ha

end Phase.Fronts

/-- A thread that does not pause before it goes on. -/
def Phase.Abreast (idle : I.Request → Bool) (Match : α → β → Prop) (x : Phase I α)
    (y : Phase I β) : Prop :=
  ∀ q, y = .running q → ∃ p, x = .running p ∧ p.Abreast idle Match q

/-- A thread that has caught up ends with the one behind it. -/
theorem Phase.Abreast.exists_result? {x : Phase I α} {y : Phase I β} (h : x.Abreast idle Match y)
    {b : β} (hb : y.result? = some b) : ∃ a, x.result? = some a := by
  cases y with
  | running q =>
    obtain ⟨p, rfl, habreast⟩ := h q rfl
    cases habreast with
    | done => exact ⟨_, rfl⟩
    | ask => cases hb
  | asking | asleep => cases hb

/-! ## Machines -/

namespace Machine

/-- **A machine of fronts**, beside the machine of the programs behind
them. -/
structure Fronts (idle : I.Request → Bool) (Match : α → β → Prop) (f : Machine I σ α)
    (m : Machine I σ β) : Prop where
  shared : f.shared = m.shared
  clock : f.clock = m.clock
  tickets : f.tickets = m.tickets
  threads : List.Forall₂ (Phase.Fronts idle Match) f.threads m.threads

/-- Fronts and the programs behind them, about to start. -/
theorem Fronts.start {ps : List (Program I α)} {qs : List (Program I β)} (s : σ)
    (h : List.Forall₂ (Program.Fronts idle Match) ps qs) :
    (Machine.start s ps).Fronts idle Match (Machine.start s qs) :=
  ⟨rfl, rfl, rfl, List.forall₂_map_left_iff.mpr
    (List.forall₂_map_right_iff.mpr (h.imp fun _ _ hp => .running hp))⟩

/-- A front has ended only if the program behind it has, with a result that
matches. -/
theorem Fronts.result? {f : Machine I σ α} {m : Machine I σ β} (h : f.Fronts idle Match m)
    {i : Nat} {a : α} (ha : f.result? i = some a) : ∃ b, m.result? i = some b ∧ Match a b := by
  obtain ⟨x, hx, hresult⟩ := Option.bind_eq_some_iff.mp ha
  obtain ⟨y, hy, hxy⟩ := exists_right_of_getElem? h.threads hx
  obtain ⟨b, hb, hab⟩ := hxy.result? hresult
  exact ⟨b, by rw [Machine.result?, hy, Option.bind_some, hb], hab⟩

variable [Server I σ] {f : Machine I σ α} {m : Machine I σ β} {r : I.Request}
  {next : I.Answer r → Program I α}

/-- **Both are served the same.** -/
theorem Fronts.serve (h : f.Fronts idle Match m) {choose : Chooser I α} {choose' : Chooser I β}
    (hsame : ∀ c, choose f.threads c = choose' m.threads c) (i : Nat) (visit : Visit)
    {next' : I.Answer r → Program I β} (hnext : ∀ a, (next a).Fronts idle Match (next' a)) :
    (f.serve choose i visit r next).Fronts idle Match (m.serve choose' i visit r next') := by
  unfold Machine.serve
  rw [h.shared]
  cases Server.serve visit m.shared r with
  | answers s signal a =>
    exact ⟨rfl, h.clock, h.tickets,
      forall₂_set (Phase.Fronts.together.deliver h.threads hsame signal) (.running (hnext a)) i⟩
  | sleeps s c deadline =>
    refine ⟨rfl, h.clock, by rw [h.tickets], ?_⟩
    rw [h.tickets]
    exact forall₂_set h.threads (.asleep _ _ _ _ hnext) i
  | runs s p =>
    exact ⟨rfl, h.clock, h.tickets, forall₂_set h.threads (.running (.after p hnext)) i⟩

end Machine

/-! ## Runs -/

variable [Server I σ]

/-- **Idle requests**, in states of a kind that no request leads out of. -/
structure Idles (idle : I.Request → Bool) (Kind : σ → Prop) : Prop where
  keeps : ∀ visit s (r : I.Request), Kind s → Kind (Server.serve visit s r).state
  idles : ∀ visit s r, Kind s → idle r → ∃ a, Server.serve visit s r = .answers s .nobody a

/-- A run after more moves. -/
def History.play (h : History I σ α) (moves : List (Machine.Move I α)) : History I σ α :=
  moves.foldl History.step h

theorem History.play_append (h : History I σ α) (moves more : List (Machine.Move I α)) :
    h.play (moves ++ more) = (h.play moves).play more :=
  List.foldl_append

theorem Machine.play_run (m : Machine I σ α) (schedule moves : List (Machine.Move I α)) :
    (m.run schedule).play moves = m.run (schedule ++ moves) :=
  (History.play_append ⟨[], m⟩ schedule moves).symm

/-- **A trace with pauses**: the first is the second with idle requests in
between. -/
inductive Pauses (idle : I.Request → Bool) : List (Event I σ) → List (Event I σ) → Prop
  | start : Pauses idle [] []
  | both {xs ys : List (Event I σ)} (e : Event I σ) :
    Pauses idle xs ys → Pauses idle (xs ++ [e]) (ys ++ [e])
  | pause {xs ys : List (Event I σ)} {e : Event I σ} :
    idle e.request → Pauses idle xs ys → Pauses idle (xs ++ [e]) ys

omit [Server I σ] in
/-- What is read off a trace is the same but for what is read off idle
requests. -/
theorem Pauses.filterMap_eq {xs ys : List (Event I σ)} (h : Pauses idle xs ys)
    {read : Event I σ → Option γ} (hread : ∀ e, idle e.request → read e = none) :
    xs.filterMap read = ys.filterMap read := by
  induction h with
  | start => rfl
  | both e _ ih => rw [filterMap_concat, filterMap_concat, ih]
  | pause hidle _ ih => rw [filterMap_concat, hread _ hidle, ih, Option.toList_none, List.append_nil]

/-- **A run of fronts**, beside a run of the programs behind them: the same
has happened, with the same states. -/
structure History.Fronts (idle : I.Request → Bool) (Match : α → β → Prop) (Kind : σ → Prop)
    (f : History I σ α) (m : History I σ β) : Prop where
  pauses : Pauses idle f.trace m.trace
  machine : f.machine.Fronts idle Match m.machine
  kind : Kind m.machine.shared

/-- The thread `i` has caught up. -/
def History.AbreastAt (idle : I.Request → Bool) (Match : α → β → Prop) (f : History I σ α)
    (m : History I σ β) (i : Nat) : Prop :=
  ∀ x ∈ f.machine.threads[i]?, ∀ y ∈ m.machine.threads[i]?, x.Abreast idle Match y

namespace History.Fronts

variable {Kind : σ → Prop} {f : History I σ α} {m : History I σ β} {i : Nat}

omit [Server I σ] in
/-- A front that has caught up has ended if the program behind it has. -/
theorem isSome_result? (h : f.Fronts idle Match Kind m) (habreast : AbreastAt idle Match f m i)
    (hended : (m.machine.result? i).isSome) : (f.machine.result? i).isSome := by
  obtain ⟨b, hb⟩ := Option.isSome_iff_exists.mp hended
  obtain ⟨y, hy, hresult⟩ := Option.bind_eq_some_iff.mp hb
  obtain ⟨x, hx, -⟩ := exists_left_of_getElem? h.machine.threads hy
  obtain ⟨a, ha⟩ := (habreast x hx y hy).exists_result? hresult
  rw [Machine.result?, hx, Option.bind_some, ha]
  rfl

/-- Both go on with the same request. -/
theorem advance (hidles : Idles idle Kind) (h : f.Fronts idle Match Kind m)
    {waker : Machine.Waker I α} {waker' : Machine.Waker I β}
    (hsame : ∀ c, waker.choose f.machine.threads c = waker'.choose m.machine.threads c)
    {x : Phase I α} {y : Phase I β} (hx : f.machine.threads[i]? = some x)
    (hy : m.machine.threads[i]? = some y) {visit : Visit} {r : I.Request}
    {next : I.Answer r → Program I α} {next' : I.Answer r → Program I β}
    (hasks : x.Asks f.machine.clock visit r next) (hasks' : y.Asks m.machine.clock visit r next')
    (hnext : ∀ a, (next a).Fronts idle Match (next' a)) :
    (f.step (.advance waker i)).Fronts idle Match Kind (m.step (.advance waker' i)) := by
  obtain ⟨hevent, hserve⟩ := Machine.advance_of_asks hx hasks waker.choose
  obtain ⟨hevent', hserve'⟩ := Machine.advance_of_asks hy hasks' waker'.choose
  simp only [History.step, hevent, hserve, hevent', hserve', Option.toList_some]
  refine ⟨?_, h.machine.serve hsame i visit hnext, ?_⟩
  · rw [h.machine.shared]
    exact .both _ h.pauses
  · rw [Machine.shared_serve]
    exact hidles.keeps _ _ _ h.kind

/-- The front pauses for an idle request. -/
theorem pause (hidles : Idles idle Kind) (h : f.Fronts idle Match Kind m)
    (waker : Machine.Waker I α) {x : Phase I α} {visit : Visit} {r : I.Request}
    {next : I.Answer r → Program I α} {q : Program I β} (hx : f.machine.threads[i]? = some x)
    (hasks : x.Asks f.machine.clock visit r next)
    (hy : m.machine.threads[i]? = some (.running q)) (hidle : idle r)
    (hnext : ∀ a, (next a).Fronts idle Match q) :
    (f.step (.advance waker i)).Fronts idle Match Kind m ∧
      ∃ a, (f.step (.advance waker i)).machine.threads =
        f.machine.threads.set i (.running (next a)) := by
  obtain ⟨hevent, hserve⟩ := Machine.advance_of_asks hx hasks waker.choose
  obtain ⟨a, ha⟩ := hidles.idles visit f.machine.shared r (h.machine.shared ▸ h.kind) hidle
  simp only [History.step, hevent, hserve, Machine.serve, ha, Machine.deliver]
  exact ⟨⟨.pause hidle h.pauses, ⟨h.machine.shared, h.machine.clock, h.machine.tickets,
    forall₂_set_left h.machine.threads hy (.running (hnext a))⟩, h.kind⟩, a, rfl⟩

/-- Both make the same request, to be served later. -/
theorem enter (h : f.Fronts idle Match Kind m) {r : I.Request} {next : I.Answer r → Program I α}
    {next' : I.Answer r → Program I β}
    (hx : f.machine.threads[i]? = some (.running (.ask r next)))
    (hy : m.machine.threads[i]? = some (.running (.ask r next')))
    (hnext : ∀ a, (next a).Fronts idle Match (next' a)) :
    (f.step (.enter i)).Fronts idle Match Kind (m.step (.enter i)) := by
  have hasking := Phase.Fronts.asking f.machine.clock false hnext
  refine ⟨h.pauses, ⟨h.machine.shared, h.machine.clock, h.machine.tickets, ?_⟩, h.kind⟩
  simp only [History.step, Machine.enter, modify_eq_set hx, modify_eq_set hy, ← h.machine.clock]
  exact forall₂_set h.machine.threads hasking i

/-- The front makes the request that it pauses for. -/
theorem enter_pause (h : f.Fronts idle Match Kind m) {r : I.Request}
    {next : I.Answer r → Program I α} {q : Program I β}
    (hx : f.machine.threads[i]? = some (.running (.ask r next)))
    (hy : m.machine.threads[i]? = some (.running q)) (hidle : idle r)
    (hnext : ∀ a, (next a).Fronts idle Match q) :
    (f.step (.enter i)).Fronts idle Match Kind m := by
  have hpausing := Phase.Fronts.pausing f.machine.clock hidle hnext
  refine ⟨h.pauses, ⟨h.machine.shared, h.machine.clock, h.machine.tickets, ?_⟩, h.kind⟩
  simp only [History.step, Machine.enter, modify_eq_set hx]
  exact forall₂_set_left h.machine.threads hy hpausing

/-- A sleep ends for both. -/
theorem wake (h : f.Fronts idle Match Kind m) (i : Nat) :
    (f.step (.wake i)).Fronts idle Match Kind (m.step (.wake i)) :=
  ⟨h.pauses, ⟨h.machine.shared, h.machine.clock, h.machine.tickets,
    forall₂_modify h.machine.threads (fun _ _ hxy => hxy.wake) i⟩, h.kind⟩

/-- Time passes for both. -/
theorem tick (h : f.Fronts idle Match Kind m) (d : Nat) :
    (f.step (.tick d)).Fronts idle Match Kind (m.step (.tick d)) :=
  ⟨h.pauses, ⟨h.machine.shared, congrArg (· + d) h.machine.clock, h.machine.tickets,
    h.machine.threads⟩, h.kind⟩

/-- **Whatever the fronts do, the programs behind them do**, by at most one
move. -/
theorem forward (hidles : Idles idle Kind) (h : f.Fronts idle Match Kind m)
    (move : Machine.Move I α) :
    (f.step move).Fronts idle Match Kind m ∨
      ∃ move', (f.step move).Fronts idle Match Kind (m.step move') := by
  cases move with
  | wake i => exact .inr ⟨.wake i, h.wake i⟩
  | tick d => exact .inr ⟨.tick d, h.tick d⟩
  | enter i =>
    rcases f.machine.enter_cases i with hstay | ⟨r, next, hx, -⟩
    · simp only [History.step, hstay]
      exact .inl h
    · obtain ⟨y, hy, hxy⟩ := exists_right_of_getElem? h.machine.threads hx
      cases hxy with
      | running hp =>
        cases hp with
        | ask hnext => exact .inr ⟨.enter i, h.enter hx hy hnext⟩
        | pause hidle hnext => exact .inl (h.enter_pause hx hy hidle hnext)
  | advance waker i =>
    rcases f.machine.advance_cases waker.choose i with ⟨hevent, hstay⟩ |
      ⟨x, visit, r, next, hx, hasks, -, -⟩
    · simp only [History.step, hevent, hstay, Option.toList_none, List.append_nil]
      exact .inl h
    · obtain ⟨y, hy, hxy⟩ := exists_right_of_getElem? h.machine.threads hx
      -- a waker may choose by what the fronts are, so its choice is imitated
      have htickets := Phase.Fronts.together.getElem?_ticket? h.machine.threads
      have hsame c := (waker.imitating_eq htickets c).symm
      have hclock := h.machine.clock
      cases hasks with
      | running =>
        cases hxy with
        | running hp =>
          cases hp with
          | ask hnext =>
            refine .inr ⟨_, h.advance hidles hsame hx hy (.running r next) ?_ hnext⟩
            rw [hclock]
            exact .running r _
          | pause hidle hnext =>
            exact .inl (h.pause hidles waker hx (.running r next) hy hidle hnext).1
      | asking =>
        cases hxy with
        | pausing _ hidle hnext =>
          exact .inl (h.pause hidles waker hx (.asking r next _ _) hy hidle hnext).1
        | asking _ _ hnext =>
          refine .inr ⟨_, h.advance hidles hsame hx hy (.asking r next _ _) ?_ hnext⟩
          rw [hclock]
          exact .asking r _ _ _

/-- **A front catches up** with the program behind it; the other threads
stay where they are. -/
theorem catch_up (hidles : Idles idle Kind) {q : Program I β}
    (hy : m.machine.threads[i]? = some (.running q)) {p : Program I α}
    (hp : p.Fronts idle Match q) : ∀ {f : History I σ α}, f.Fronts idle Match Kind m →
    f.machine.threads[i]? = some (.running p) →
    ∃ moves p', (f.play moves).Fronts idle Match Kind m ∧
      p'.Abreast idle Match q ∧
      (f.play moves).machine.threads = f.machine.threads.set i (.running p') := by
  -- every pause brings the front nearer, and a front pauses finitely often
  induction hp with
  | done hab =>
    intro f h hx
    exact ⟨[], _, h, .done hab, (set_eq_self hx).symm⟩
  | ask hnext =>
    intro f h hx
    exact ⟨[], _, h, .ask hnext, (set_eq_self hx).symm⟩
  | pause hidle hnext ih =>
    intro f h hx
    obtain ⟨hpaused, a, hthreads⟩ := h.pause hidles .longest hx (.running _ _) hy hidle hnext
    obtain ⟨moves, p', hfronts, habreast, hset⟩ := ih a hy hpaused (by
      rw [hthreads, getElem?_set_of_some hx])
    refine ⟨.advance .longest i :: moves, p', hfronts, habreast, hset.trans ?_⟩
    rw [hthreads, List.set_set]

/-- A thread has caught up already where the one behind it has made its
request. -/
theorem catch_up_at (hidles : Idles idle Kind) (h : f.Fronts idle Match Kind m) (i : Nat) :
    ∃ moves, (f.play moves).Fronts idle Match Kind m ∧ AbreastAt idle Match (f.play moves) m i ∧
      ∀ j ≠ i, (f.play moves).machine.threads[j]? = f.machine.threads[j]? := by
  by_cases hrunning : ∃ q, m.machine.threads[i]? = some (.running q)
  · obtain ⟨q, hy⟩ := hrunning
    obtain ⟨x, hx, hxy⟩ := exists_left_of_getElem? h.machine.threads hy
    obtain ⟨moves, p', hfronts, habreast, hset⟩ : ∃ moves p',
        (f.play moves).Fronts idle Match Kind m ∧ p'.Abreast idle Match q ∧
          (f.play moves).machine.threads = f.machine.threads.set i (.running p') := by
      cases hxy with
      | running hp => exact catch_up hidles hy hp h hx
      | pausing _ hidle hnext =>
        obtain ⟨hpaused, a, hthreads⟩ := h.pause hidles .longest hx (.asking _ _ _ _) hy hidle hnext
        have hx' := hthreads ▸ getElem?_set_of_some hx _
        obtain ⟨moves, p', hfronts, habreast, hset⟩ := catch_up hidles hy (hnext a) hpaused hx'
        refine ⟨.advance .longest i :: moves, p', hfronts, habreast, hset.trans ?_⟩
        rw [hthreads, List.set_set]
    refine ⟨moves, hfronts, fun x hx' y hy' q' hq' => ?_, fun j hj => ?_⟩
    · rw [hset, getElem?_set_of_some hx] at hx'
      obtain rfl := Option.some_inj.mp hx'
      obtain rfl := Option.some_inj.mp (hy.symm.trans hy')
      cases hq'
      exact ⟨p', rfl, habreast⟩
    · rw [hset, List.getElem?_set_ne (Ne.symm hj)]
  · refine ⟨[], h, fun x hx y hy q hq => ?_, fun _ _ => rfl⟩
    exact absurd ⟨q, hq ▸ hy⟩ hrunning

theorem catch_up_to (hidles : Idles idle Kind) (h : f.Fronts idle Match Kind m) (n : Nat) :
    ∃ moves, (f.play moves).Fronts idle Match Kind m ∧
      ∀ i < n, AbreastAt idle Match (f.play moves) m i := by
  -- one thread after another
  induction n with
  | zero => exact ⟨[], h, nofun⟩
  | succ n ih =>
    obtain ⟨moves, hfronts, habreast⟩ := ih
    obtain ⟨more, hfronts', hlast, hothers⟩ := hfronts.catch_up_at hidles n
    refine ⟨moves ++ more, by rwa [play_append], fun i hi => ?_⟩
    rw [play_append]
    by_cases hin : i = n
    · subst hin
      exact hlast
    · intro x hx
      rw [hothers i hin] at hx
      exact habreast i (by omega) x hx

/-- **All fronts catch up** with the programs behind them. -/
theorem all_catch_up (hidles : Idles idle Kind) (h : f.Fronts idle Match Kind m) :
    ∃ moves, (f.play moves).Fronts idle Match Kind m ∧
      ∀ i, AbreastAt idle Match (f.play moves) m i := by
  obtain ⟨moves, hfronts, habreast⟩ := h.catch_up_to hidles m.machine.threads.length
  refine ⟨moves, hfronts, fun i x hx y hy => habreast i ?_ x hx y hy⟩
  exact (List.getElem?_eq_some_iff.mp hy).1

/-- **Whatever the programs behind them do, the fronts do**, once they have
caught up. -/
theorem backward (hidles : Idles idle Kind) (h : f.Fronts idle Match Kind m)
    (habreast : ∀ i, AbreastAt idle Match f m i) (move' : Machine.Move I β) :
    ∃ moves, (f.play moves).Fronts idle Match Kind (m.step move') := by
  cases move' with
  | wake i => exact ⟨[.wake i], h.wake i⟩
  | tick d => exact ⟨[.tick d], h.tick d⟩
  | enter i =>
    rcases m.machine.enter_cases i with hstay | ⟨r, next', hy, -⟩
    · refine ⟨[], ?_⟩
      simp only [History.step, hstay]
      exact h
    · obtain ⟨x, hx, -⟩ := exists_left_of_getElem? h.machine.threads hy
      obtain ⟨p, rfl, hp⟩ := habreast i x hx _ hy _ rfl
      cases hp with
      | ask hnext => exact ⟨[.enter i], h.enter hx hy hnext⟩
  | advance waker' i =>
    rcases m.machine.advance_cases waker'.choose i with ⟨hevent, hstay⟩ |
      ⟨y, visit, r, next', hy, hasks', -, -⟩
    · refine ⟨[], ?_⟩
      simp only [History.step, hevent, hstay, Option.toList_none, List.append_nil]
      exact h
    · obtain ⟨x, hx, hxy⟩ := exists_left_of_getElem? h.machine.threads hy
      have hsame := waker'.imitating_eq
        fun i c => (Phase.Fronts.together.getElem?_ticket? h.machine.threads i c).symm
      have hclock := h.machine.clock
      cases hasks' with
      | running =>
        obtain ⟨p, rfl, hp⟩ := habreast i x hx _ hy _ rfl
        cases hp with
        | ask hnext =>
          refine ⟨[.advance _ i], h.advance hidles hsame hx hy ?_ (.running r next') hnext⟩
          rw [← hclock]
          exact .running r _
      | asking =>
        cases hxy with
        | asking _ _ hnext =>
          refine ⟨[.advance _ i], h.advance hidles hsame hx hy ?_ (.asking r next' _ _) hnext⟩
          rw [← hclock]
          exact .asking r _ _ _

end History.Fronts

namespace Machine.Fronts

variable {Kind : σ → Prop} {f : Machine I σ α} {m : Machine I σ β}

/-- **Every run of fronts is one of the programs behind them**, at every
point. -/
theorem forward (hidles : Idles idle Kind) (h : f.Fronts idle Match m) (hkind : Kind m.shared) :
    ∃ translate : List (Move I α) → List (Move I β), InStep translate ∧
      ∀ schedule, (f.run schedule).Fronts idle Match Kind (m.run (translate schedule)) := by
  refine exists_inStep
    (fun schedule schedule' => (f.run schedule).Fronts idle Match Kind (m.run schedule')) []
    ⟨.start, h, hkind⟩ fun schedule schedule' move ih => ?_
  rcases ih.forward hidles move with hstay | ⟨move', hmove⟩
  · refine ⟨[], ?_⟩
    rwa [List.append_nil, run_concat]
  · refine ⟨[move'], ?_⟩
    rwa [run_concat, run_concat]

/-- **Every run of the programs behind them is one of fronts**, who have
caught up at every point. -/
theorem backward (hidles : Idles idle Kind) (h : f.Fronts idle Match m) (hkind : Kind m.shared) :
    ∃ translate : List (Move I β) → List (Move I α), InStep translate ∧
      ∀ schedule', (f.run (translate schedule')).Fronts idle Match Kind (m.run schedule') ∧
        ∀ i, History.AbreastAt idle Match (f.run (translate schedule')) (m.run schedule') i := by
  obtain ⟨moves, hfirst⟩ := History.Fronts.all_catch_up (f := ⟨[], f⟩) (m := ⟨[], m⟩) hidles
    ⟨.start, h, hkind⟩
  refine exists_inStep
    (fun schedule' schedule => (f.run schedule).Fronts idle Match Kind (m.run schedule') ∧
      ∀ i, History.AbreastAt idle Match (f.run schedule) (m.run schedule') i)
    moves hfirst ?_
  rintro schedule' schedule move' ⟨ih, habreast⟩
  obtain ⟨moves, hmoved⟩ := ih.backward hidles habreast move'
  obtain ⟨more, hfronts⟩ := hmoved.all_catch_up hidles
  refine ⟨moves ++ more, ?_⟩
  rw [run_concat, ← play_run, History.play_append]
  exact hfronts

end Machine.Fronts

end MessageIntake
