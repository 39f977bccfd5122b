import MessageIntake.Proofs.Machine.Walk

/-!
# What a program has asked, and what it was answered

A trace lists what was served, thread by thread and moment by moment. It
does not say what a request was answered that a program ran for: the
answer is the result of that program. An `Account` of a program reads it
off the thread's own events, which it divides into those of the requests
of the program itself and those of the programs that ran for them; it
ends with the exchanges, which are the requests with their answers.

Every thread that has ended has an account of its program
(`Machine.account`), and the exchanges of an account are a path through
the program (`Account.path`). So what is true of every path through a
program is true of every call of it, under every schedule. A program
that does not wait comes to its end if only its thread is moved
(`Prompt.ends`).
-/

namespace MessageIntake

variable {I : Interface} {σ α β γ : Type}

/-- A request with its answer. -/
structure Exchange (I : Interface) where
  request : I.Request
  answer : I.Answer request

namespace Program

/-- **A path through a program**: if its requests are answered as in the
log, it asks just these and ends with the result. -/
inductive Path : Program I α → List (Exchange I) → α → Prop
  | done (a : α) : Path (.done a) [] a
  | ask {r : I.Request} {next : I.Answer r → Program I α} {a : I.Answer r}
    {log : List (Exchange I)} {b : α} :
    Path (next a) log b → Path (.ask r next) (⟨r, a⟩ :: log) b

/-- A path through one program after another goes through both. -/
theorem Path.of_bind {p : Program I α} {f : α → Program I β} :
    ∀ {log : List (Exchange I)} {b : β}, (p.bind f).Path log b →
      ∃ a earlier later, log = earlier ++ later ∧ p.Path earlier a ∧ (f a).Path later b := by
  induction p with
  | done a => exact fun {log _} h => ⟨a, [], log, rfl, .done a, h⟩
  | ask r next ih =>
    intro log b h
    rw [ask_bind] at h
    cases h with
    | ask h =>
      obtain ⟨a, earlier, later, rfl, hp, hf⟩ := ih _ h
      exact ⟨a, _ :: earlier, later, rfl, .ask hp, hf⟩

theorem Path.of_done {a b : α} {log : List (Exchange I)}
    (h : (Program.done a : Program I α).Path log b) : log = [] ∧ b = a := by
  cases h
  exact ⟨rfl, rfl⟩

/-- A program that starts with a request has a path that starts with it. -/
theorem Path.of_request_bind {r : I.Request} {f : I.Answer r → Program I α}
    {log : List (Exchange I)} {b : α} (h : ((request r).bind f).Path log b) :
    ∃ a later, log = ⟨r, a⟩ :: later ∧ (f a).Path later b := by
  cases h with
  | ask h => exact ⟨_, _, rfl, h⟩

end Program

variable [Server I σ]

/-- **An account of a program**: the events that a thread had on its way
through it, the exchanges of the program itself, and its result. The
events of a program that ran for a request stand right after the event
of the request. -/
inductive Account : {α : Type} → Program I α → List (Event I σ) → List (Exchange I) → α → Prop
  | done {α : Type} (a : α) : Account (.done a) [] [] a
  | answers {α : Type} {r : I.Request} {next : I.Answer r → Program I α} {i : Nat} {visit : Visit}
    {s s' : σ} {signal : Signal} {a : I.Answer r} {events : List (Event I σ)}
    {log : List (Exchange I)} {b : α} :
    Server.serve visit s r = .answers s' signal a → Account (next a) events log b →
    Account (.ask r next) (⟨i, s, r, some a, s'⟩ :: events) (⟨r, a⟩ :: log) b
  | sleeps {α : Type} {r : I.Request} {next : I.Answer r → Program I α} {i : Nat} {visit : Visit}
    {s s' : σ} {c : Condition} {deadline : Option Instant} {events : List (Event I σ)}
    {log : List (Exchange I)} {b : α} :
    Server.serve visit s r = .sleeps s' c deadline → Account (.ask r next) events log b →
    Account (.ask r next) (⟨i, s, r, none, s'⟩ :: events) log b
  | runs {α : Type} {r : I.Request} {next : I.Answer r → Program I α} {i : Nat} {visit : Visit}
    {s s' : σ} {p : Program I (I.Answer r)} {inner events : List (Event I σ)}
    {innerLog log : List (Exchange I)} {a : I.Answer r} {b : α} :
    Server.serve visit s r = .runs s' p → Account p inner innerLog a →
    Account (next a) events log b →
    Account (.ask r next) (⟨i, s, r, none, s'⟩ :: (inner ++ events)) (⟨r, a⟩ :: log) b

namespace Account

variable {events : List (Event I σ)} {log : List (Exchange I)}

/-- What is true of every path is true of every account. -/
theorem path {p : Program I α} {a : α} (h : Account p events log a) : p.Path log a := by
  induction h with
  | done a => exact .done a
  | answers _ _ ih => exact .ask ih
  | sleeps _ _ ih => exact ih
  | runs _ _ _ _ ih => exact .ask ih

theorem of_done {a b : α} (h : Account (.done a) events log b) :
    events = [] ∧ log = [] ∧ b = a := by
  cases h
  exact ⟨rfl, rfl, rfl⟩

/-- An account of one program after another is one of each. -/
theorem of_bind {p : Program I α} {f : α → Program I β} {b : β}
    (h : Account (p.bind f) events log b) :
    ∃ a events₁ events₂ log₁ log₂, events = events₁ ++ events₂ ∧ log = log₁ ++ log₂ ∧
      Account p events₁ log₁ a ∧ Account (f a) events₂ log₂ b := by
  generalize hq : p.bind f = q at h
  induction h generalizing p with
  | done b =>
    cases p with
    | done a =>
      rw [Program.done_bind] at hq
      exact ⟨a, [], [], [], [], rfl, rfl, .done a, hq ▸ .done b⟩
    | ask r next => cases hq
  | answers hserve hrest ih =>
    cases p with
    | done a =>
      rw [Program.done_bind] at hq
      exact ⟨a, [], _, [], _, rfl, rfl, .done a, hq ▸ .answers hserve hrest⟩
    | ask r next =>
      rw [Program.ask_bind] at hq
      cases hq
      obtain ⟨a, events₁, events₂, log₁, log₂, rfl, rfl, hp, hf⟩ := ih rfl
      exact ⟨a, _ :: events₁, events₂, _ :: log₁, log₂, rfl, rfl, .answers hserve hp, hf⟩
  | sleeps hserve hrest ih =>
    cases p with
    | done a =>
      rw [Program.done_bind] at hq
      exact ⟨a, [], _, [], _, rfl, rfl, .done a, hq ▸ .sleeps hserve hrest⟩
    | ask r next =>
      obtain ⟨a, events₁, events₂, log₁, log₂, rfl, rfl, hp, hf⟩ := ih hq
      rw [Program.ask_bind] at hq
      cases hq
      exact ⟨a, _ :: events₁, events₂, log₁, log₂, rfl, rfl, .sleeps hserve hp, hf⟩
  | runs hserve hinner hrest _ ih =>
    cases p with
    | done a =>
      rw [Program.done_bind] at hq
      exact ⟨a, [], _, [], _, rfl, rfl, .done a, hq ▸ .runs hserve hinner hrest⟩
    | ask r next =>
      rw [Program.ask_bind] at hq
      cases hq
      obtain ⟨a, events₁, events₂, log₁, log₂, rfl, rfl, hp, hf⟩ := ih rfl
      rw [← List.append_assoc]
      exact ⟨a, _ :: (_ ++ events₁), events₂, _ :: log₁, log₂, rfl, rfl,
        .runs hserve hinner hp, hf⟩

/-- A request that no program runs for may be put off, and is answered. -/
theorem of_ask {r : I.Request} {next : I.Answer r → Program I α} {b : α}
    (hruns : ∀ visit (s s' : σ) p, Server.serve visit s r ≠ .runs s' p)
    (h : Account (.ask r next) events log b) :
    ∃ a asked later log', events = asked ++ later ∧ (∀ e ∈ asked, e.request = r) ∧
      log = ⟨r, a⟩ :: log' ∧ Account (next a) later log' b := by
  generalize hp : Program.ask r next = p at h
  induction h with
  | done a => cases hp
  | answers hserve hrest =>
    cases hp
    exact ⟨_, [_], _, _, rfl, fun e he => by rw [List.mem_singleton.mp he], rfl, hrest⟩
  | sleeps hserve hrest ih =>
    obtain ⟨a, asked, later, log', rfl, hasked, rfl, hlater⟩ := ih hp
    cases hp
    exact ⟨a, _ :: asked, later, log', rfl, List.forall_mem_cons.mpr ⟨rfl, hasked⟩, rfl, hlater⟩
  | runs hserve hinner hrest =>
    cases hp
    exact absurd hserve (hruns _ _ _ _)

/-- Every exchange is of a request that was served. -/
theorem exists_event {p : Program I α} {a : α} (h : Account p events log a) :
    ∀ x ∈ log, ∃ e ∈ events, e.request = x.request := by
  induction h with
  | done a => simp
  | answers hserve hrest ih =>
    intro x hx
    rcases List.mem_cons.mp hx with rfl | hx
    · exact ⟨_, List.mem_cons_self, rfl⟩
    · obtain ⟨e, he, hrequest⟩ := ih x hx
      exact ⟨e, List.mem_cons_of_mem _ he, hrequest⟩
  | sleeps hserve hrest ih =>
    intro x hx
    obtain ⟨e, he, hrequest⟩ := ih x hx
    exact ⟨e, List.mem_cons_of_mem _ he, hrequest⟩
  | runs hserve hinner hrest _ ih =>
    intro x hx
    rcases List.mem_cons.mp hx with rfl | hx
    · exact ⟨_, List.mem_cons_self, rfl⟩
    · obtain ⟨e, he, hrequest⟩ := ih x hx
      exact ⟨e, List.mem_cons_of_mem _ (List.mem_append_right _ he), hrequest⟩

/-- **A served request adds to an account** of what is left to do: with
its event in front it is an account of what was left before. -/
theorem of_resume {r : I.Request} {next : I.Answer r → Program I α} {i : Nat} {visit : Visit}
    {s : σ} {b : α} (h : Account ((Server.serve visit s r).resume next) events log b) :
    ∃ log', Account (.ask r next) (.of i visit s r :: events) log' b := by
  unfold Event.of
  cases hserve : Server.serve visit s r with
  | answers s' signal a =>
    rw [hserve] at h
    exact ⟨_, .answers hserve h⟩
  | sleeps s' c deadline =>
    rw [hserve] at h
    exact ⟨_, .sleeps hserve h⟩
  | runs s' p =>
    rw [hserve] at h
    obtain ⟨a, inner, rest, innerLog, log', rfl, -, hp, hrest⟩ := of_bind h
    exact ⟨_, .runs hserve hp hrest⟩

/-- So does a whole walk. -/
theorem of_walk {p q : Program I α} {later : List (Event I σ)} {b : α} (hwalk : Walk p events q)
    (h : Account q later log b) : ∃ log', Account p (events ++ later) log' b := by
  induction hwalk with
  | stay p => exact ⟨log, h⟩
  | serve _ ih =>
    obtain ⟨log', h'⟩ := ih h
    exact of_resume h'

end Account

/-- **A thread that has ended has an account of its program**, by its own
events. -/
theorem Machine.account {s : σ} {programs : List (Program I α)}
    (schedule : List (Machine.Move I α)) {i : Nat} {p : Program I α} (hp : programs[i]? = some p)
    {a : α} (ha : ((Machine.start s programs).run schedule).machine.result? i = some a) :
    ∃ log, Account p (((Machine.start s programs).run schedule).trace.filter (·.thread = i))
      log a := by
  have hprogram : (Machine.start s programs).programs[i]? = some p := by
    rw [Machine.programs_start, hp]
  obtain ⟨q, hq, hwalk⟩ := Machine.walk schedule hprogram
  rw [Machine.result?_eq hq] at ha
  obtain rfl := Program.eq_done_of_result? ha
  obtain ⟨log, haccount⟩ := Account.of_walk hwalk (.done a)
  exact ⟨log, by simpa using haccount⟩

/-! ## Programs that do not wait -/

/-- **A program that does not wait**: what it asks is served at once, or
by a program that does not wait either. -/
inductive Prompt (σ : Type) [Server I σ] : {α : Type} → Program I α → Prop
  | done {α : Type} (a : α) : Prompt σ (.done a)
  | ask {α : Type} {r : I.Request} {next : I.Answer r → Program I α} :
    (∀ visit (s s' : σ) c deadline, Server.serve visit s r ≠ .sleeps s' c deadline) →
    (∀ visit (s s' : σ) p, Server.serve visit s r = .runs s' p → Prompt σ p) →
    (∀ a, Prompt σ (next a)) → Prompt σ (.ask r next)

namespace Prompt

theorem bind {p : Program I α} (h : Prompt σ p) {f : α → Program I β}
    (hf : ∀ a, Prompt σ (f a)) : Prompt σ (p.bind f) := by
  induction h with
  | done a => exact hf a
  | ask hstays hruns _ _ ih => exact .ask hstays hruns fun a => ih a hf

/-- A request that is answered at once. -/
theorem of_answers {r : I.Request} {next : I.Answer r → Program I α}
    (h : ∀ visit (s : σ), ∃ s' signal a, Server.serve visit s r = .answers s' signal a)
    (hnext : ∀ a, Prompt σ (next a)) : Prompt σ (.ask r next) := by
  refine .ask (fun visit s s' c deadline hserve => ?_) (fun visit s s' p hserve => ?_) hnext
  · obtain ⟨s'', signal, a, hanswers⟩ := h visit s
    rw [hanswers] at hserve
    cases hserve
  · obtain ⟨s'', signal, a, hanswers⟩ := h visit s
    rw [hanswers] at hserve
    cases hserve

/-- Who asks nothing but what is answered at once does not wait. -/
theorem of_asks {Allowed : I.Request → Prop} {p : Program I α} (h : p.Asks Allowed)
    (hanswers : ∀ r, Allowed r → ∀ visit (s : σ), ∃ s' signal a,
      Server.serve visit s r = .answers s' signal a) : Prompt σ p := by
  induction h with
  | done a => exact .done a
  | ask hr _ ih => exact .of_answers (hanswers _ hr) ih

/-- What is left of it when it was served a request does not wait. -/
theorem resume {r : I.Request} {next : I.Answer r → Program I α} (h : Prompt σ (.ask r next))
    (visit : Visit) (s : σ) : Prompt σ ((Server.serve visit s r).resume next) := by
  cases h with
  | ask hstays hruns hnext =>
    cases hserve : Server.serve visit s r with
    | answers s' signal a => exact hnext a
    | sleeps s' c deadline => exact absurd hserve (hstays visit s s' c deadline)
    | runs s' p => exact (hruns visit s s' p hserve).bind hnext

/-- It does not wait wherever a walk through it has come. -/
theorem of_walk {p q : Program I α} {events : List (Event I σ)} (h : Prompt σ p)
    (hwalk : Walk p events q) : Prompt σ q := by
  induction hwalk with
  | stay p => exact h
  | serve _ ih => exact ih (h.resume _ _)

end Prompt

/-- Whether thread `i` comes to its end, whatever the machine is, if it
has `p` to do and is moved often enough. -/
def Ends (σ : Type) [Server I σ] (i : Nat) (p : Program I β) : Prop :=
  ∀ m : Machine I σ β, m.programs[i]? = some p → ∃ more, ((m.run more).machine.result? i).isSome

theorem ends_done (i : Nat) (b : β) : Ends σ i (.done b : Program I β) := by
  intro m hm
  rw [Machine.programs, List.getElem?_map, Option.map_eq_some_iff] at hm
  obtain ⟨phase, hphase, hprogram⟩ := hm
  refine ⟨[], ?_⟩
  cases phase with
  | running p =>
    obtain rfl : p = .done b := hprogram
    simp [Machine.run, Machine.result?, hphase, Phase.result?]
  | asking | asleep => cases hprogram

/-- A thread comes to its end if it does once its next request is
served. -/
theorem ends_ask {i : Nat} {r : I.Request} {next : I.Answer r → Program I β}
    (h : ∀ visit (s : σ), Ends σ i ((Server.serve visit s r).resume next)) :
    Ends σ i (.ask r next) := by
  intro m hm
  -- whether it is asleep or not, it can be woken and then moved
  have hserved : ∃ visit, ((m.wake i).advance (Machine.Waker.longest (I := I) (α := β)).choose
      i).programs[i]? = some ((Server.serve visit m.shared r).resume next) := by
    have hi : i < m.programs.length := (List.getElem?_eq_some_iff.mp hm).1
    rw [Machine.programs, List.getElem?_map, Option.map_eq_some_iff] at hm
    obtain ⟨phase, hphase, hprogram⟩ := hm
    have hwoken : (m.wake i).threads[i]? = some phase.wake := by
      simp [Machine.wake, hphase]
    rcases (m.wake i).advance_cases (Machine.Waker.longest (I := I) (α := β)).choose i with
      ⟨hnone, -⟩ | ⟨phase', visit, r', next', hphase', hasks, -, hserve⟩
    · cases phase with
      | running p =>
        obtain rfl : p = .ask r next := hprogram
        simp [Machine.event?, Machine.asks?, hwoken, Phase.wake] at hnone
      | asking | asleep => simp [Machine.event?, Machine.asks?, hwoken, Phase.wake] at hnone
    · rw [hwoken, Option.some_inj] at hphase'
      have hasked := hasks.program_eq
      rw [← hphase', Phase.program_wake, hprogram] at hasked
      cases hasked
      refine ⟨visit, ?_⟩
      rw [hserve, Machine.programs_serve, Machine.programs_wake, List.getElem?_set_self hi]
      rfl
  obtain ⟨visit, hserved⟩ := hserved
  obtain ⟨more, hmore⟩ := h visit m.shared _ hserved
  refine ⟨[.wake i, .advance .longest i] ++ more, ?_⟩
  rw [Machine.run_append]
  exact hmore

/-- **A thread whose program does not wait comes to its end.** -/
theorem Prompt.ends {p : Program I α} (h : Prompt σ p) {i : Nat} {f : α → Program I β}
    (hf : ∀ a, Ends σ i (f a)) : Ends σ i (p.bind f) := by
  induction h with
  | done a => exact hf a
  | ask hstays _ _ hinner ih =>
    refine ends_ask fun visit s => ?_
    rename_i r next _ _
    cases hserve : Server.serve visit s r with
    | answers s' signal a => exact ih a hf
    | sleeps s' c deadline => exact absurd hserve (hstays visit s s' c deadline)
    | runs s' q => exact hinner visit s s' q hserve fun a => ih a hf

/-- At every point of every run, a thread whose program does not wait can
be brought to its end. -/
theorem Machine.returns {m : Machine I σ α} {i : Nat} {p : Program I α}
    (hp : m.programs[i]? = some p) (h : Prompt σ p) (schedule : List (Machine.Move I α)) :
    ∃ more, (((m.run schedule).machine.run more).machine.result? i).isSome := by
  obtain ⟨q, hq, hwalk⟩ := Machine.walk schedule hp
  have hends := (h.of_walk hwalk).ends (i := i) (f := .done) (ends_done i)
  rw [Program.bind_done] at hends
  exact hends _ hq

end MessageIntake
