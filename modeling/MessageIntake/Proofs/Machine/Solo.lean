import MessageIntake.Proofs.Machine.Walk

/-!
# A thread that moves alone

If one thread moves and no other does, its program decides what happens:
what it asks, whom it wakes, what becomes of the state and what it ends
with. `Program.Alone` says all of this for a program that never has to
sleep and whose signals are for all sleepers, and `Program.Alone.ends`
finds the run in which it happens; whoever else is in the machine is
still where it was, or is woken.
-/

namespace MessageIntake

variable {I : Interface} {σ α β : Type}

/-- Ends the sleep of a thread that is asleep on a condition. -/
def Phase.wakeOn (c : Condition) (phase : Phase I α) : Phase I α :=
  if (phase.ticket? c).isSome then phase.wake else phase

/-- Ends all sleeps on conditions. -/
def Machine.awaken (conditions : List Condition) (threads : List (Phase I α)) :
    List (Phase I α) :=
  conditions.foldl (fun threads c => threads.map (Phase.wakeOn c)) threads

/-- **A program that moves alone**, from one state to another: it wakes all
sleepers on the conditions `woken`, asks what is `asked`, and ends with a
result. -/
inductive Program.Alone [Server I σ] (now : Instant) :
    Program I α → σ → List Condition → List I.Request → σ → α → Prop
  | done (a : α) (s : σ) : Alone now (.done a) s [] [] s a
  | answers {s s' s'' : σ} {r : I.Request} {next : I.Answer r → Program I α} {answer : I.Answer r}
    {woken : List Condition} {asked : List I.Request} {a : α} :
    Server.serve ⟨now, now, false⟩ s r = .answers s' .nobody answer →
    Alone now (next answer) s' woken asked s'' a →
    Alone now (.ask r next) s woken (r :: asked) s'' a
  | wakes {s s' s'' : σ} {r : I.Request} {next : I.Answer r → Program I α} {answer : I.Answer r}
    {c : Condition} {woken : List Condition} {asked : List I.Request} {a : α} :
    Server.serve ⟨now, now, false⟩ s r = .answers s' (.all c) answer →
    Alone now (next answer) s' woken asked s'' a →
    Alone now (.ask r next) s (c :: woken) (r :: asked) s'' a
  | runs {s s' s'' : σ} {r : I.Request} {next : I.Answer r → Program I α}
    {p : Program I (I.Answer r)} {woken : List Condition} {asked : List I.Request} {a : α} :
    Server.serve ⟨now, now, false⟩ s r = .runs s' p →
    Alone now (p.bind next) s' woken asked s'' a →
    Alone now (.ask r next) s woken (r :: asked) s'' a

namespace Program.Alone

variable [Server I σ] {now : Instant} {p : Program I α} {s s' s'' : σ}
  {woken woken' : List Condition} {asked asked' : List I.Request} {a : α} {b : β}

/-- One program after another. -/
theorem bind {f : α → Program I β} (h : p.Alone now s woken asked s' a)
    (hf : (f a).Alone now s' woken' asked' s'' b) :
    (p.bind f).Alone now s (woken ++ woken') (asked ++ asked') s'' b := by
  induction h with
  | done => exact hf
  | answers hserve _ ih => exact .answers hserve (ih hf)
  | wakes hserve _ ih => exact .wakes hserve (ih hf)
  | runs hserve _ ih =>
    refine .runs hserve ?_
    rw [← bind_assoc]
    exact ih hf

end Program.Alone

namespace Machine

theorem awaken_set (conditions : List Condition) (threads : List (Phase I α)) (i : Nat)
    (p : Program I α) :
    awaken conditions (threads.set i (.running p)) = (awaken conditions threads).set i (.running p) := by
  induction conditions generalizing threads with
  | nil => rfl
  | cons c rest ih =>
    have hmap : (threads.set i (.running p)).map (Phase.wakeOn c) =
        (threads.map (Phase.wakeOn c)).set i (.running p) := List.map_set
    simp only [awaken, List.foldl_cons] at ih ⊢
    rw [hmap, ih]

theorem length_awaken (conditions : List Condition) (threads : List (Phase I α)) :
    (awaken conditions threads).length = threads.length := by
  induction conditions generalizing threads with
  | nil => rfl
  | cons c rest ih => exact (ih _).trans (List.length_map _)

/-- Whoever is woken has as much to do as before. -/
theorem program_awaken (conditions : List Condition) (threads : List (Phase I α)) :
    (awaken conditions threads).map Phase.program = threads.map Phase.program := by
  induction conditions generalizing threads with
  | nil => rfl
  | cons c rest ih => exact (ih _).trans (programs_deliver (fun _ _ => none) (.all c) threads)

/-- The machine after thread `i` has moved alone. -/
def afterAlone (m : Machine I σ α) (i : Nat) (woken : List Condition) (s : σ) (a : α) :
    Machine I σ α :=
  { m with shared := s, threads := (awaken woken m.threads).set i (.running (.done a)) }

theorem result?_afterAlone {m : Machine I σ α} {i : Nat} (hi : i < m.threads.length)
    (woken : List Condition) (s : σ) (a : α) : (m.afterAlone i woken s a).result? i = some a := by
  have hlength : i < (awaken woken m.threads).length := by rwa [length_awaken]
  rw [result?, afterAlone, List.getElem?_set_self hlength]
  rfl

/-- What a thread does after its first step comes after what it does in it. -/
theorem afterAlone_of_set {m : Machine I σ α} {i : Nat} (woken woken' : List Condition) (s s' : σ)
    (p : Program I α) (a : α) :
    ({ m with shared := s, threads := (awaken woken m.threads).set i (.running p) } :
      Machine I σ α).afterAlone i woken' s' a = m.afterAlone i (woken ++ woken') s' a := by
  simp only [afterAlone, awaken_set, List.set_set]
  rw [awaken, awaken, awaken, List.foldl_append]

variable [Server I σ] {m : Machine I σ α} {i : Nat}

/-- A thread that has ended does not move. -/
theorem run_of_ended (h : (m.result? i).isSome) (waker : Waker I α) (n : Nat) :
    m.run (List.replicate n (.advance waker i)) = ⟨[], m⟩ := by
  have hstay : m.event? i = none ∧ m.advance waker.choose i = m := by
    obtain ⟨a, ha⟩ := Option.isSome_iff_exists.mp h
    obtain ⟨phase, hi, hresult⟩ := Option.bind_eq_some_iff.mp ha
    rcases m.advance_cases waker.choose i with hstay | ⟨phase', _, _, _, hi', hasks, -⟩
    · exact hstay
    · obtain rfl := Option.some_inj.mp (hi.symm.trans hi')
      cases hasks <;> cases hresult
  induction n with
  | zero => rfl
  | succ n ih =>
    rw [List.replicate_succ', run_concat, ih, History.step, hstay.1, hstay.2]
    rfl

/-- **A thread that moves alone ends in one way only.** -/
theorem run_unique {waker : Waker I α} {n n' : Nat}
    (h : ((m.run (List.replicate n (.advance waker i))).machine.result? i).isSome)
    (h' : ((m.run (List.replicate n' (.advance waker i))).machine.result? i).isSome) :
    m.run (List.replicate n (.advance waker i)) = m.run (List.replicate n' (.advance waker i)) := by
  -- what the longer run does more is done by a thread that has ended
  wlog hle : n ≤ n' generalizing n n'
  · exact (this h' h (Nat.le_of_not_le hle)).symm
  obtain ⟨k, rfl⟩ := Nat.exists_eq_add_of_le hle
  rw [List.replicate_add, run_append, run_of_ended h waker k, List.append_nil]

/-- A step of a thread that moves alone, and then more. -/
theorem run_succ_of_ask {r : I.Request} {next : I.Answer r → Program I α}
    (hi : m.threads[i]? = some (.running (.ask r next))) (waker : Waker I α) (n : Nat) :
    let later := (m.serve waker.choose i ⟨m.clock, m.clock, false⟩ r next).run
      (List.replicate n (.advance waker i))
    m.run (List.replicate (n + 1) (.advance waker i)) =
      ⟨.of i ⟨m.clock, m.clock, false⟩ m.shared r :: later.trace, later.machine⟩ := by
  obtain ⟨hevent, hadvance⟩ := advance_of_asks hi (.running r next) waker.choose
  have hfirst : m.run [.advance waker i] = ⟨[.of i ⟨m.clock, m.clock, false⟩ m.shared r],
      m.serve waker.choose i ⟨m.clock, m.clock, false⟩ r next⟩ := by
    simp only [run, List.foldl_cons, List.foldl_nil, History.step, hevent, hadvance]
    rfl
  rw [List.replicate_succ, ← List.singleton_append, run_append, hfirst]
  rfl

/-- A run in which a thread moves alone begins with its first step, and goes on
from there. -/
theorem exists_alone_of_first {r : I.Request} {next : I.Answer r → Program I α} {p : Program I α}
    {waker : Waker I α} {woken' : List Condition} {asked : List I.Request} {s s' : σ} {a : α}
    (woken : List Condition) (hi : m.threads[i]? = some (.running (.ask r next)))
    (hfirst : m.serve waker.choose i ⟨m.clock, m.clock, false⟩ r next =
      { m with shared := s, threads := (awaken woken m.threads).set i (.running p) })
    (hlater : ∀ {m' : Machine I σ α}, m'.clock = m.clock → m'.shared = s →
      m'.threads[i]? = some (.running p) → ∃ n,
        (m'.run (List.replicate n (.advance waker i))).machine = m'.afterAlone i woken' s' a ∧
        (m'.run (List.replicate n (.advance waker i))).trace.map Event.request = asked) :
    ∃ n, (m.run (List.replicate n (.advance waker i))).machine =
        m.afterAlone i (woken ++ woken') s' a ∧
      (m.run (List.replicate n (.advance waker i))).trace.map Event.request = r :: asked := by
  have hlength : i < (awaken woken m.threads).length := by
    rw [length_awaken]
    exact (List.getElem?_eq_some_iff.mp hi).1
  obtain ⟨n, hmachine, htrace⟩ :=
    @hlater { m with shared := s, threads := (awaken woken m.threads).set i (.running p) } rfl rfl
      (List.getElem?_set_self hlength)
  refine ⟨n + 1, ?_, ?_⟩
  · rw [run_succ_of_ask hi, hfirst]
    exact hmachine.trans (afterAlone_of_set woken woken' s s' p a)
  · rw [run_succ_of_ask hi, hfirst]
    exact congrArg (r :: ·) htrace

end Machine

open Machine

/-- **The run of a program that moves alone.** -/
theorem Program.Alone.ends [Server I σ] {p : Program I α} {now : Instant} {s s' : σ}
    {woken : List Condition} {asked : List I.Request} {a : α}
    (h : p.Alone now s woken asked s' a) (waker : Waker I α) :
    ∀ {m : Machine I σ α} {i : Nat}, m.clock = now → m.shared = s →
      m.threads[i]? = some (.running p) →
      ∃ n, (m.run (List.replicate n (.advance waker i))).machine = m.afterAlone i woken s' a ∧
        (m.run (List.replicate n (.advance waker i))).trace.map Event.request = asked := by
  induction h with
  | done a s =>
    rintro m i rfl rfl hi
    have hset : m.threads.set i (.running (.done a)) = m.threads := set_eq_self hi
    refine ⟨0, ?_, rfl⟩
    simp only [afterAlone, awaken, List.foldl_nil, hset]
    rfl
  | answers hserve _ ih =>
    rintro m i rfl rfl hi
    refine exists_alone_of_first [] hi ?_ ih
    rw [Machine.serve, hserve]
    rfl
  | @wakes _ _ _ _ _ _ c _ _ _ hserve _ ih =>
    rintro m i rfl rfl hi
    refine exists_alone_of_first [c] hi ?_ ih
    rw [Machine.serve, hserve]
    rfl
  | runs hserve _ ih =>
    rintro m i rfl rfl hi
    refine exists_alone_of_first [] hi ?_ ih
    rw [Machine.serve, hserve]
    rfl

/-- **A thread that has moved alone until it ended** has done what its program
says. -/
theorem Program.Alone.run_eq [Server I σ] {p : Program I α} {s : σ} {woken : List Condition}
    {asked : List I.Request} {a : α} {m : Machine I σ α} {i : Nat}
    (h : p.Alone m.clock m.shared woken asked s a) (hi : m.threads[i]? = some (.running p))
    {waker : Waker I α} {n : Nat}
    (hended : ((m.run (List.replicate n (.advance waker i))).machine.result? i).isSome) :
    (m.run (List.replicate n (.advance waker i))).machine = m.afterAlone i woken s a ∧
      (m.run (List.replicate n (.advance waker i))).trace.map Event.request = asked := by
  obtain ⟨n', hmachine, htrace⟩ := h.ends waker rfl rfl hi
  have hended' : ((m.run (List.replicate n' (.advance waker i))).machine.result? i).isSome := by
    rw [hmachine, result?_afterAlone (List.getElem?_eq_some_iff.mp hi).1]
    rfl
  rw [run_unique hended hended']
  exact ⟨hmachine, htrace⟩

/-! ## One step at a time -/

/-- A run with other events before it. -/
def History.after (before : List (Event I σ)) (h : History I σ α) : History I σ α :=
  ⟨before ++ h.trace, h.machine⟩

namespace Machine

/-- The machine with another state and another program for thread `i`. -/
def resume (m : Machine I σ α) (s : σ) (i : Nat) (p : Program I α) : Machine I σ α :=
  { m with shared := s, threads := m.threads.set i (.running p) }

@[simp] theorem resume_resume (m : Machine I σ α) (s s' : σ) (i : Nat) (p p' : Program I α) :
    (m.resume s i p).resume s' i p' = m.resume s' i p' := by
  simp [resume]

theorem afterAlone_resume (m : Machine I σ α) (s s' : σ) (i : Nat) (p : Program I α) (a : α) :
    (m.resume s i p).afterAlone i [] s' a = m.resume s' i (.done a) := by
  simp [afterAlone, resume, awaken]

variable [Server I σ] {m : Machine I σ α} {i : Nat} {s s' : σ} {r : I.Request}
  {next : I.Answer r → Program I α} {a : I.Answer r}

/-- **A step that is answered and wakes nobody**, and then more: nothing else has changed. -/
theorem run_cons_of_asks {phase : Phase I α} {visit : Visit} (hi : m.threads[i]? = some phase)
    (hasks : phase.Asks m.clock visit r next)
    (h : Server.serve visit m.shared r = .answers s' .nobody a) (waker : Waker I α)
    (later : List (Move I α)) :
    m.run (.advance waker i :: later) =
      ((m.resume s' i (next a)).run later).after [⟨i, m.shared, r, some a, s'⟩] := by
  obtain ⟨hevent, hadvance⟩ := advance_of_asks hi hasks waker.choose
  have hfirst : m.run [.advance waker i] =
      ⟨[⟨i, m.shared, r, some a, s'⟩], m.resume s' i (next a)⟩ := by
    simp only [run, List.foldl_cons, List.foldl_nil, History.step, hevent, hadvance, Machine.serve,
      Event.of, h]
    rfl
  rw [← List.singleton_append, run_append, hfirst]
  rfl

/-- The same of a thread that is about to ask, whatever it did before. -/
theorem run_cons_of_answers (hi : i < m.threads.length)
    (h : Server.serve ⟨m.clock, m.clock, false⟩ s r = .answers s' .nobody a) (waker : Waker I α)
    (later : List (Move I α)) :
    (m.resume s i (.ask r next)).run (.advance waker i :: later) =
      ((m.resume s' i (next a)).run later).after [⟨i, s, r, some a, s'⟩] := by
  have hasks : (m.resume s i (.ask r next)).threads[i]? = some (.running (.ask r next)) :=
    List.getElem?_set_self hi
  have hrun := run_cons_of_asks hasks (.running r next) h waker later
  rw [resume_resume] at hrun
  exact hrun

end Machine

/-- **A program whose requests are answered at once**, and wake nobody, moves alone to its
end. -/
theorem Program.exists_alone [Server I σ] {p : Program I α}
    (h : p.Asks fun r => ∀ visit (s : σ), ∃ s' a, Server.serve visit s r = .answers s' .nobody a)
    (now : Instant) (s : σ) : ∃ asked s' a, p.Alone now s [] asked s' a := by
  induction h generalizing s with
  | done a => exact ⟨[], s, a, .done a s⟩
  | ask hr _ ih =>
    obtain ⟨s', answer, hserve⟩ := hr ⟨now, now, false⟩ s
    obtain ⟨asked, s'', a, halone⟩ := ih answer s'
    exact ⟨_, s'', a, .answers hserve halone⟩

end MessageIntake
