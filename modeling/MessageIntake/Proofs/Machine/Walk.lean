import MessageIntake.Proofs.Machine.Schedule
import Mathlib.Data.List.Perm.Subperm

/-!
# How far a thread has come

A `Walk` is the way of a thread from its program to what is left of it,
by its own events. Every thread is on a walk at every point of every run
(`Machine.walk`), whatever the other threads do, so a property of all
walks of a program is one of every call of it, also of a call that has
not returned.

A program of several calls, one after another, is walked call by call.
`InTurn` divides the events of a thread into those of its calls, and
`Walk.inTurn` finds the division and gives every call what is true of
all walks of its program.
-/

namespace MessageIntake

variable {I : Interface} {σ α β κ : Type}

namespace Program

/-- The result of a program that has ended. -/
def result? : Program I α → Option α
  | .done a => some a
  | .ask _ _ => none

/-- Programs one after another, with their results. -/
def inTurn : List (Program I α) → Program I (List α)
  | [] => .done []
  | p :: rest => p.bind fun a => (inTurn rest).bind fun as => .done (a :: as)

theorem eq_done_of_result? {p : Program I α} {a : α} (h : p.result? = some a) : p = .done a := by
  cases p with
  | done b => rw [Option.some_inj.mp h]
  | ask r next => cases h

end Program

theorem Program.result?_bind_of_none {p : Program I α} (h : p.result? = none)
    (f : α → Program I β) : (p.bind f).result? = none := by
  cases p with
  | done a => cases h
  | ask r next => rfl

theorem Served.resume_bind {r : I.Request} (served : Served I σ (I.Answer r))
    (next : I.Answer r → Program I α) (f : α → Program I β) :
    served.resume (fun a => (next a).bind f) = (served.resume next).bind f := by
  cases served with
  | answers | sleeps => rfl
  | runs s p => exact (p.bind_assoc next f).symm

variable [Server I σ]

/-- **A walk through a program**: the events of a thread on its way from
the program to what is left of it. -/
inductive Walk : Program I α → List (Event I σ) → Program I α → Prop
  | stay (p : Program I α) : Walk p [] p
  | serve {r : I.Request} {next : I.Answer r → Program I α} {i : Nat} {visit : Visit} {s : σ}
    {events : List (Event I σ)} {q : Program I α} :
    Walk ((Server.serve visit s r).resume next) events q →
    Walk (.ask r next) (.of i visit s r :: events) q

/-- An event of a request that is not answered by it. -/
def Unanswered (r : I.Request) (e : Event I σ) : Prop :=
  ∃ i visit s, e = .of i visit s r ∧ (Server.serve visit s r).answer? = none

namespace Walk

variable {p q : Program I α} {events : List (Event I σ)}

/-- One event more. -/
theorem concat {r : I.Request} {next : I.Answer r → Program I α}
    (h : Walk p events (.ask r next)) (i : Nat) (visit : Visit) (s : σ) :
    Walk p (events ++ [.of i visit s r]) ((Server.serve visit s r).resume next) := by
  generalize hq : Program.ask r next = q at h
  induction h with
  | stay p =>
    subst hq
    exact .serve (.stay _)
  | serve _ ih => exact .serve (ih hq)

/-- Who has ended stays. -/
theorem of_done {a : α} (h : Walk (.done a) events q) : events = [] ∧ q = .done a := by
  cases h
  exact ⟨rfl, rfl⟩

/-- **A walk through one program after another** has not come to the end of
the first yet, or goes through both. -/
theorem of_bind {p : Program I α} {f : α → Program I β} {q : Program I β}
    (h : Walk (p.bind f) events q) :
    (∃ p', p'.result? = none ∧ Walk p events p' ∧ q = p'.bind f) ∨
      ∃ a earlier later, events = earlier ++ later ∧ Walk p earlier (.done a) ∧
        Walk (f a) later q := by
  generalize hp : p.bind f = p₀ at h
  induction h generalizing p with
  | stay p₀ =>
    cases p with
    | done a => exact .inr ⟨a, [], [], rfl, .stay _, hp ▸ .stay _⟩
    | ask r next => exact .inl ⟨_, rfl, .stay _, hp.symm⟩
  | serve hrest ih =>
    cases p with
    | done a =>
      rw [Program.done_bind] at hp
      exact .inr ⟨a, [], _, rfl, .stay _, hp ▸ .serve hrest⟩
    | ask r next =>
      rw [Program.ask_bind] at hp
      cases hp
      rcases ih (Served.resume_bind _ next f).symm with ⟨p', hp', hwalk, rfl⟩ |
        ⟨a, earlier, later, rfl, hwalk, hlater⟩
      · exact .inl ⟨p', hp', .serve hwalk, rfl⟩
      · exact .inr ⟨a, _ :: earlier, later, rfl, .serve hwalk, hlater⟩

/-- What a walk through a program is to a longer one. -/
theorem bind (h : Walk p events q) (f : α → Program I β) : Walk (p.bind f) events (q.bind f) := by
  induction h with
  | stay p => exact .stay _
  | serve _ ih =>
    rw [← Served.resume_bind] at ih
    exact .serve ih

/-- An event of a walk is one of serving. -/
theorem exists_of_mem (h : Walk p events q) {e : Event I σ} (he : e ∈ events) :
    ∃ i visit s r, e = .of i visit s r := by
  induction h with
  | stay p => cases he
  | serve _ ih =>
    rcases List.mem_cons.mp he with rfl | he
    · exact ⟨_, _, _, _, rfl⟩
    · exact ih he

/-- **A walk to the end of one program after another** is one to the end of each. -/
theorem of_bind_done {p : Program I α} {f : α → Program I β} {b : β}
    (h : Walk (p.bind f) events (.done b)) :
    ∃ a earlier later, events = earlier ++ later ∧ Walk p earlier (.done a) ∧
      Walk (f a) later (.done b) := by
  rcases h.of_bind with ⟨p', hp', -, hdone⟩ | hboth
  · have hnone := Program.result?_bind_of_none hp' f
    rw [← hdone] at hnone
    cases hnone
  · exact hboth

/-- **A walk through a program whose result is converted** is one through the program. -/
theorem of_map {p : Program I α} {f : α → β} {q : Program I β}
    (h : Walk (p.bind fun a => .done (f a)) events q) :
    ∃ p', Walk p events p' ∧ q.result? = p'.result?.map f := by
  rcases h.of_bind with ⟨p', hp', hwalk, rfl⟩ | ⟨a, earlier, later, rfl, hwalk, hdone⟩
  · exact ⟨p', hwalk, by rw [hp']; exact Program.result?_bind_of_none hp' _⟩
  · obtain ⟨rfl, rfl⟩ := hdone.of_done
    exact ⟨.done a, by rwa [List.append_nil], rfl⟩

/-- A walk to the end of a program whose result is converted. -/
theorem of_bind_map {p : Program I α} {f : α → β} {b : β}
    (h : Walk (p.bind fun a => .done (f a)) events (.done b)) :
    ∃ a, Walk p events (.done a) ∧ b = f a := by
  obtain ⟨p', hwalk, hresult⟩ := h.of_map
  obtain ⟨a, ha, rfl⟩ := Option.map_eq_some_iff.mp hresult.symm
  exact ⟨a, Program.eq_done_of_result? ha ▸ hwalk, rfl⟩

/-- What a program ends with that goes on from its result without asking. -/
theorem exists_of_bind_done {p : Program I α} {f : α → β} {q : Program I β}
    (h : Walk (p.bind fun a => .done (f a)) events q) {b : β} (hb : q.result? = some b) :
    ∃ a, b = f a := by
  obtain ⟨p', -, hresult⟩ := h.of_map
  obtain ⟨a, -, rfl⟩ := Option.map_eq_some_iff.mp (hresult.symm.trans hb)
  exact ⟨a, rfl⟩

/-- **A walk through a program, another one, and the results of both as a list**: the
first has not come to its end yet, or the second has come as far as the whole. -/
theorem of_bind_cons {p : Program I α} {f : α → Program I (List β)} {g : α → β}
    {q : Program I (List β)}
    (h : Walk (p.bind fun a => (f a).bind fun bs => .done (g a :: bs)) events q) :
    (∃ p', p'.result? = none ∧ Walk p events p' ∧ q.result? = none) ∨
      ∃ a earlier later q', events = earlier ++ later ∧ Walk p earlier (.done a) ∧
        Walk (f a) later q' ∧ q.result? = q'.result?.map (g a :: ·) := by
  rcases h.of_bind with ⟨p', hp', hwalk, rfl⟩ | ⟨a, earlier, later, rfl, hwalk, hlater⟩
  · exact .inl ⟨p', hp', hwalk, Program.result?_bind_of_none hp' _⟩
  · obtain ⟨q', hrest, hresult⟩ := hlater.of_map
    exact .inr ⟨a, earlier, later, q', rfl, hwalk, hrest, hresult⟩

/-- **A request that no program runs for** has not been answered yet, or is
answered after the thread has slept. -/
theorem of_ask {r : I.Request} {next : I.Answer r → Program I α}
    (hruns : ∀ visit (s s' : σ) p, Server.serve visit s r ≠ .runs s' p)
    (h : Walk (.ask r next) events q) :
    (q = .ask r next ∧ ∀ e ∈ events, Unanswered r e) ∨
      ∃ asleep i visit s a later, events = asleep ++ .of i visit s r :: later ∧
        (∀ e ∈ asleep, Unanswered r e) ∧ (Server.serve visit s r).answer? = some a ∧
        Walk (next a) later q := by
  obtain ⟨p, hp⟩ : ∃ p, p = Program.ask r next := ⟨_, rfl⟩
  rw [← hp] at h
  induction h with
  | stay p => exact .inl ⟨hp, by simp⟩
  | @serve r' next' i visit s events q hrest ih =>
    cases hp
    cases hserve : Server.serve visit s r with
    | answers s' signal a =>
      rw [hserve] at hrest
      exact .inr ⟨[], i, visit, s, a, events, rfl, by simp, by rw [hserve]; rfl, hrest⟩
    | sleeps s' c deadline =>
      have hasleep : Unanswered r (.of i visit s r) := ⟨i, visit, s, rfl, by rw [hserve]; rfl⟩
      rcases ih (by rw [hserve]; rfl) with ⟨rfl, hevents⟩ |
        ⟨asleep, i', visit', s', a, later, rfl, hwaits, ha, hlater⟩
      · exact .inl ⟨rfl, List.forall_mem_cons.mpr ⟨hasleep, hevents⟩⟩
      · exact .inr ⟨_ :: asleep, i', visit', s', a, later, rfl,
          List.forall_mem_cons.mpr ⟨hasleep, hwaits⟩, ha, hlater⟩
    | runs s' p => exact absurd hserve (hruns visit s s' p)

/-- A request that is answered at once. -/
theorem of_prompt_ask {r : I.Request} {next : I.Answer r → Program I α}
    (hnow : ∀ visit (s : σ), ((Server.serve visit s r).answer?).isSome)
    (h : Walk (.ask r next) events q) :
    (q = .ask r next ∧ events = []) ∨
      ∃ i visit s a later, events = .of i visit s r :: later ∧
        (Server.serve visit s r).answer? = some a ∧ Walk (next a) later q := by
  cases h with
  | stay => exact .inl ⟨rfl, rfl⟩
  | @serve _ _ i visit s events _ hrest =>
    have hsome := hnow visit s
    cases hserve : Server.serve visit s r with
    | answers s' signal a =>
      rw [hserve] at hrest
      exact .inr ⟨i, visit, s, a, events, rfl, by rw [hserve]; rfl, hrest⟩
    | sleeps s' c deadline =>
      rw [hserve] at hsome
      cases hsome
    | runs s' p =>
      rw [hserve] at hsome
      cases hsome

end Walk

/-- A walk through a program that asks nothing but what is allowed meets nothing
else, if no programs run for it. -/
theorem Walk.allowed {Allowed : I.Request → Prop}
    (hruns : ∀ r, Allowed r → ∀ visit (s s' : σ) p, Server.serve visit s r ≠ .runs s' p)
    {p q : Program I α} {events : List (Event I σ)} (h : Walk p events q)
    (hp : p.Asks Allowed) : ∀ e ∈ events, Allowed e.request := by
  induction h with
  | stay p => simp
  | @serve r next i visit s events q _ ih =>
    cases hp with
    | ask hr hnext =>
      refine List.forall_mem_cons.mpr ⟨hr, ih ?_⟩
      cases hserve : Server.serve visit s r with
      | answers s' signal a => exact hnext a
      | sleeps s' c deadline => exact .ask hr hnext
      | runs s' p => exact absurd hserve (hruns r hr visit s s' p)

/-- **Every thread is on a walk**, from its program to what it still has to
do, by its own events. -/
theorem Machine.walk {m : Machine I σ α} (schedule : List (Machine.Move I α)) {i : Nat}
    {p : Program I α} (hp : m.programs[i]? = some p) :
    ∃ q, (m.run schedule).machine.programs[i]? = some q ∧
      Walk p ((m.run schedule).trace.filter (·.thread = i)) q := by
  refine Machine.run_induction (P := fun h : History I σ α =>
    ∃ q, h.machine.programs[i]? = some q ∧ Walk p (h.trace.filter (·.thread = i)) q) ?_ ?_ schedule
  · exact ⟨p, hp, .stay p⟩
  · intro schedule move ⟨q, hq, hwalk⟩
    generalize m.run schedule = h at hq hwalk ⊢
    rcases h.step_cases move with ⟨htrace, -, hprograms⟩ |
      ⟨j, visit, r, next, hj, htrace, -, hprograms⟩
    · rw [htrace, hprograms]
      exact ⟨q, hq, hwalk⟩
    · rw [htrace, hprograms, List.filter_append]
      by_cases hij : j = i
      · subst hij
        rw [hj, Option.some_inj] at hq
        subst hq
        refine ⟨_, getElem?_set_of_some hj _, ?_⟩
        simpa [Event.of] using hwalk.concat j visit h.machine.shared
      · refine ⟨q, by rw [List.getElem?_set_ne hij, hq], ?_⟩
        simpa [Event.of, hij] using hwalk

omit [Server I σ] in
/-- What a thread has ended with is what is left of its program. -/
theorem Machine.result?_eq {m : Machine I σ α} {i : Nat} {q : Program I α}
    (h : m.programs[i]? = some q) : m.result? i = q.result? := by
  rw [Machine.programs, List.getElem?_map, Option.map_eq_some_iff] at h
  obtain ⟨phase, hphase, rfl⟩ := h
  rw [Machine.result?, hphase, Option.bind_some]
  cases phase with
  | running p => cases p <;> rfl
  | asking | asleep => rfl

/-! ## Calls one after another -/

/-- **The events of a thread, call by call**: each call that has returned
is as `Spec` says of its events and its result, and so is the call that
is under way, which has no result yet. -/
inductive InTurn (action : κ → Program I α)
    (Spec : κ → List (Event I σ) → Option α → Prop) :
    List κ → List (Event I σ) → List α → Prop
  | waits (calls : List κ) : InTurn action Spec calls [] []
  | underWay {call : κ} {calls : List κ} {events : List (Event I σ)} {q : Program I α} :
    Walk (action call) events q → q.result? = none → Spec call events none →
    InTurn action Spec (call :: calls) events []
  | returns {call : κ} {calls : List κ} {events later : List (Event I σ)} {a : α} {as : List α} :
    Walk (action call) events (.done a) → Spec call events (some a) →
    InTurn action Spec calls later as →
    InTurn action Spec (call :: calls) (events ++ later) (a :: as)

/-- **A walk through calls one after another** is one through each, as far
as it has come. -/
theorem Walk.inTurn {action : κ → Program I α}
    {Spec : κ → List (Event I σ) → Option α → Prop} {calls : List κ}
    (hspec : ∀ call ∈ calls, ∀ events q, Walk (action call) events q →
      Spec call events q.result?) :
    ∀ {events : List (Event I σ)} {q : Program I (List α)},
      Walk (Program.inTurn (calls.map action)) events q →
      ∃ as, InTurn action Spec calls events as ∧
        ∀ all, q = .done all → all = as ∧ as.length = calls.length := by
  induction calls with
  | nil =>
    intro events q h
    obtain ⟨rfl, rfl⟩ := h.of_done
    exact ⟨[], .waits [], fun all hall => ⟨(Program.done.inj hall).symm, rfl⟩⟩
  | cons call calls ih =>
    rw [List.forall_mem_cons] at hspec
    intro events q h
    rcases h.of_bind_cons with ⟨p, hp, hwalk, hq⟩ |
      ⟨a, earlier, later, q', rfl, hwalk, hrest, hq⟩
    · have hunder := hspec.1 events p hwalk
      rw [hp] at hunder
      exact ⟨[], .underWay hwalk hp hunder, fun all hall => by rw [hall] at hq; cases hq⟩
    · obtain ⟨as, hturn, hend⟩ := ih hspec.2 hrest
      refine ⟨a :: as, .returns hwalk (hspec.1 earlier (.done a) hwalk) hturn, ?_⟩
      rintro all rfl
      obtain ⟨as', has', rfl⟩ := Option.map_eq_some_iff.mp hq.symm
      obtain ⟨rfl, hlength⟩ := hend as' (Program.eq_done_of_result? has')
      exact ⟨rfl, congrArg Nat.succ hlength⟩

/-- **A thread of calls one after another** has the events of these calls, and ends with
what they return. -/
theorem Machine.inTurn {m : Machine I σ (List α)} (schedule : List (Machine.Move I (List α)))
    {i : Nat} {action : κ → Program I α} {Spec : κ → List (Event I σ) → Option α → Prop}
    {calls : List κ} (hp : m.programs[i]? = some (Program.inTurn (calls.map action)))
    (hspec : ∀ call ∈ calls, ∀ events q, Walk (action call) events q →
      Spec call events q.result?) :
    ∃ as, InTurn action Spec calls ((m.run schedule).trace.filter (·.thread = i)) as ∧
      ∀ all, (m.run schedule).machine.result? i = some all →
        all = as ∧ as.length = calls.length := by
  obtain ⟨q, hq, hwalk⟩ := Machine.walk schedule hp
  obtain ⟨as, hturns, hend⟩ := hwalk.inTurn hspec
  refine ⟨as, hturns, fun all hall => hend all (Program.eq_done_of_result? ?_)⟩
  rw [← Machine.result?_eq hq]
  exact hall

/-! ## All threads together -/

/-- Whoever is served is one of the threads. -/
theorem Machine.thread_lt {m : Machine I σ α} {schedule : List (Machine.Move I α)} {e : Event I σ}
    (h : e ∈ (m.run schedule).trace) : e.thread < m.programs.length := by
  revert e
  refine Machine.run_induction (P := fun h : History I σ α =>
    ∀ {e}, e ∈ h.trace → e.thread < m.programs.length) (by simp) ?_ schedule
  intro schedule move ih e he
  have hlength := Machine.length_programs_run (m := m) schedule
  rcases (m.run schedule).step_cases move with ⟨htrace, -, -⟩ |
    ⟨i, visit, r, next, hi, htrace, -, -⟩
  · rw [htrace] at he
    exact ih he
  · rw [htrace] at he
    rcases List.mem_append.mp he with he | he
    · exact ih he
    · rw [List.mem_singleton.mp he, ← hlength]
      exact (List.getElem?_eq_some_iff.mp hi).1

omit [Server I σ] in
/-- What only thread `i` does can be read off its events. -/
theorem filterMap_eq_of_others {read : Event I σ → Option κ} {trace : List (Event I σ)} {i : Nat}
    (h : ∀ e ∈ trace, e.thread ≠ i → read e = none) :
    trace.filterMap read = (trace.filter (·.thread = i)).filterMap read := by
  rw [List.filterMap_filter]
  refine List.filterMap_congr fun e he => ?_
  by_cases hi : e.thread = i
  · simp [hi]
  · simp [hi, h e he hi]

omit [Server I σ] in
/-- **What is so of every thread by itself is so of them together**: if no
thread of a kind has more of one reading than of another, neither have
they all. -/
theorem subperm_of_threads {read read' : Event I σ → Option κ} (Kind : Nat → Prop)
    [DecidablePred Kind] {trace : List (Event I σ)} {n : Nat}
    (hn : ∀ e ∈ trace, e.thread < n)
    (h : ∀ i, Kind i → ((trace.filter (·.thread = i)).filterMap read).Subperm
      ((trace.filter (·.thread = i)).filterMap read')) :
    ((trace.filter fun e => Kind e.thread).filterMap read).Subperm
      ((trace.filter fun e => Kind e.thread).filterMap read') := by
  -- the threads are taken in one after another
  have hbelow : ∀ k, ((trace.filter fun e => Kind e.thread ∧ e.thread < k).filterMap read).Subperm
      ((trace.filter fun e => Kind e.thread ∧ e.thread < k).filterMap read') := by
    intro k
    induction k with
    | zero =>
      have hnobody : (trace.filter fun e => Kind e.thread ∧ e.thread < 0) = [] := by simp
      rw [hnobody]
      exact List.nil_subperm
    | succ k ih =>
      have hsplit : ((trace.filter fun e => Kind e.thread ∧ e.thread < k) ++
          (trace.filter fun e => Kind e.thread ∧ e.thread = k)).Perm
            (trace.filter fun e => Kind e.thread ∧ e.thread < k + 1) := by
        refine .trans (.of_eq ?_) (List.filter_append_perm (fun e => e.thread < k) _)
        rw [List.filter_filter, List.filter_filter]
        congr 1 <;> refine List.filter_congr fun e _ => ?_ <;> simp <;> grind
      have hown : ((trace.filter fun e => Kind e.thread ∧ e.thread = k).filterMap read).Subperm
          ((trace.filter fun e => Kind e.thread ∧ e.thread = k).filterMap read') := by
        by_cases hk : Kind k
        · have hsame : (trace.filter fun e => Kind e.thread ∧ e.thread = k) =
              trace.filter (·.thread = k) := List.filter_congr fun e _ => by simp; grind
          rw [hsame]
          exact h k hk
        · have hnobody : (trace.filter fun e => Kind e.thread ∧ e.thread = k) = [] := by
            rw [List.filter_eq_nil_iff]
            grind
          rw [hnobody]
          exact List.nil_subperm
      have hparts := List.Subperm.append ih hown
      rw [← List.filterMap_append, ← List.filterMap_append] at hparts
      exact ((hsplit.filterMap read).symm.subperm.trans hparts).trans
        (hsplit.filterMap read').subperm
  have hall : (trace.filter fun e => Kind e.thread ∧ e.thread < n) =
      trace.filter fun e => Kind e.thread := List.filter_congr fun e he => by simp [hn e he]
  rw [← hall]
  exact hbelow n

end MessageIntake
