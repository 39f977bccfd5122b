import MessageIntake.Machine
import Mathlib.Data.List.Induction

/-!
# Every schedule of a machine

A machine leaves open which step comes next, whom a signal wakes, when
a sleep ends, and how long a request has been made when it is served. A
`Move` is one step with all of that decided, a schedule is a list of
moves, and `Machine.run` plays one. A statement about
`Machine.run m schedule` for every `schedule` is therefore one about
every interleaving of the threads, with wakeups for no reason and
timeouts at any time.

A run is seen as its `History`: the events in the order they happened
and the machine they lead to. For whatever does not ask who is asleep,
`History.step_cases` says all that a move can do: nothing, or one thread
is served its next request.
-/

namespace MessageIntake

variable {I : Interface} {σ α β : Type}

namespace Served

/-- The state after serving. -/
def state : Served I σ β → σ
  | .answers s _ _ | .sleeps s _ _ | .runs s _ => s

/-- The answer, if it is given at once. -/
def answer? : Served I σ β → Option β
  | .answers _ _ a => some a
  | .sleeps .. | .runs .. => none

/-- What is left to do of a thread that asked `r` and goes on with
`next`. -/
def resume {r : I.Request} (next : I.Answer r → Program I α) :
    Served I σ (I.Answer r) → Program I α
  | .answers _ _ a => next a
  | .sleeps .. => .ask r next
  | .runs _ p => p.bind next

end Served

namespace Phase

def isAsleep : Phase I α → Bool
  | .asleep .. => true
  | _ => false

/-- What is left to do of a thread. -/
def program : Phase I α → Program I α
  | .running p => p
  | .asking r next .. | .asleep r next .. => .ask r next

/-- **What a thread asks when it moves**: a running thread its next
request, which it makes now, and any other the one that it has made. -/
inductive Asks (now : Instant) : Phase I α → Visit → (r : I.Request) →
    (I.Answer r → Program I α) → Prop
  | running (r next) : Asks now (.running (.ask r next)) ⟨now, now, false⟩ r next
  | asking (r next started waited) :
    Asks now (.asking r next started waited) ⟨started, now, waited⟩ r next

@[simp] theorem program_wake (phase : Phase I α) : phase.wake.program = phase.program := by
  cases phase <;> rfl

theorem Asks.program_eq {now : Instant} {phase : Phase I α} {visit : Visit} {r : I.Request}
    {next : I.Answer r → Program I α} (h : phase.Asks now visit r next) :
    phase.program = .ask r next := by
  cases h <;> rfl

/-- A thread that does not sleep asks what it has to do next. -/
theorem exists_asks {phase : Phase I α} {r : I.Request} {next : I.Answer r → Program I α}
    (hawake : phase.isAsleep = false) (hprogram : phase.program = .ask r next) (now : Instant) :
    ∃ visit, phase.Asks now visit r next := by
  cases phase with
  | running p =>
    obtain rfl : p = .ask r next := hprogram
    exact ⟨_, .running r next⟩
  | asking r' next' started waited =>
    cases hprogram
    exact ⟨_, .asking r next started waited⟩
  | asleep => cases hawake

/-- A thread that has ended has nothing left but its result. -/
theorem program_of_result? {phase : Phase I α} {a : α} (h : phase.result? = some a) :
    phase.program = .done a := by
  unfold result? at h
  split at h
  · simpa [program] using h
  · cases h

end Phase

/-- What happened when a thread was served a request. There is no answer
yet if the thread fell asleep or runs a program for it. -/
structure Event (I : Interface) (σ : Type) where
  thread : Nat
  before : σ
  request : I.Request
  answer : Option (I.Answer request)
  after : σ

/-- The event of serving `r` to thread `i`. -/
def Event.of [Server I σ] (i : Nat) (visit : Visit) (s : σ) (r : I.Request) : Event I σ :=
  ⟨i, s, r, (Server.serve visit s r).answer?, (Server.serve visit s r).state⟩

/-- What is read off a trace grows with it. -/
theorem filterMap_concat (read : α → Option β) (l : List α) (a : α) :
    (l ++ [a]).filterMap read = l.filterMap read ++ (read a).toList := by
  rw [List.filterMap_append]
  cases h : read a <;> simp [h]

/-- To put back what stands at a place changes nothing. -/
theorem set_eq_self {l : List α} {i : Nat} {a : α} (h : l[i]? = some a) : l.set i a = l := by
  obtain ⟨hi, rfl⟩ := List.getElem?_eq_some_iff.mp h
  exact List.set_getElem_self hi

/-- To change what stands at a place is to put there what it is changed to. -/
theorem modify_eq_set {l : List α} {i : Nat} {a : α} (h : l[i]? = some a) (f : α → α) :
    l.modify i f = l.set i (f a) := by
  apply List.ext_getElem?
  intro j
  by_cases hij : i = j
  · subst hij
    rw [List.getElem?_modify_eq, List.getElem?_set_self (List.getElem?_eq_some_iff.mp h).1, h]
    rfl
  · simp [hij]

theorem getElem?_set_of_some {l : List α} {i : Nat} {a : α} (h : l[i]? = some a) (b : α) :
    (l.set i b)[i]? = some b :=
  List.getElem?_set_self (List.getElem?_eq_some_iff.mp h).1

/-- What stands in a list after a change was put there or was there
before. -/
theorem cases_of_getElem?_set {l : List α} {i j : Nat} {a b c : α} (h : l[i]? = some a)
    (hj : (l.set i b)[j]? = some c) : (i = j ∧ c = b) ∨ (i ≠ j ∧ l[j]? = some c) := by
  by_cases hij : i = j
  · subst hij
    rw [getElem?_set_of_some h, Option.some_inj] at hj
    exact .inl ⟨rfl, hj.symm⟩
  · rw [List.getElem?_set_ne hij] at hj
    exact .inr ⟨hij, hj⟩

namespace Machine

/-! ## Who is woken -/

/-- **A way to wake one sleeper.** It finds a thread that is asleep on
the condition if there is one; which one is left open. -/
structure Waker (I : Interface) (α : Type) where
  choose : Chooser I α
  finds_sleeper {threads : List (Phase I α)} {c : Condition} {i : Nat} :
    choose threads c = some i → ∃ phase, threads[i]? = some phase ∧ (phase.ticket? c).isSome
  finds_any {threads : List (Phase I α)} {c : Condition} :
    choose threads c = none → ∀ phase ∈ threads, phase.ticket? c = none

/-- One comparison of the search for the longest sleeper. -/
def longer (c : Condition) (best : Option (Nat × Nat)) (candidate : Phase I α × Nat) :
    Option (Nat × Nat) :=
  match candidate.1.ticket? c, best with
  | none, _ => best
  | some ticket, none => some (ticket, candidate.2)
  | some ticket, some (least, _) => if ticket < least then some (ticket, candidate.2) else best

theorem longestSleeper_eq (threads : List (Phase I α)) (c : Condition) :
    longestSleeper threads c = (threads.zipIdx.foldl (longer c) none).map Prod.snd := rfl

/-- The search ends with what it started from or with a sleeper. -/
theorem foldl_longer {c : Condition} {found : Nat × Nat} :
    ∀ (candidates : List (Phase I α × Nat)) (best : Option (Nat × Nat)),
      candidates.foldl (longer c) best = some found →
      best = some found ∨ ∃ phase, (phase, found.2) ∈ candidates ∧ (phase.ticket? c).isSome := by
  intro candidates
  induction candidates with
  | nil => exact fun best h => .inl h
  | cons candidate rest ih =>
    intro best h
    rcases ih _ h with hbest | ⟨phase, hmem, hticket⟩
    · clear h ih
      unfold longer at hbest
      split at hbest
      · exact .inl hbest
      · rename_i hticket
        cases hbest
        exact .inr ⟨candidate.1, List.mem_cons_self, by rw [hticket]; rfl⟩
      · rename_i hticket
        split at hbest
        · cases hbest
          exact .inr ⟨candidate.1, List.mem_cons_self, by rw [hticket]; rfl⟩
        · exact .inl hbest
    · exact .inr ⟨phase, List.mem_cons_of_mem _ hmem, hticket⟩

/-- The search ends with nothing only if nobody sleeps. -/
theorem foldl_longer_eq_none {c : Condition} :
    ∀ (candidates : List (Phase I α × Nat)) (best : Option (Nat × Nat)),
      candidates.foldl (longer c) best = none →
      best = none ∧ ∀ candidate ∈ candidates, candidate.1.ticket? c = none := by
  intro candidates
  induction candidates with
  | nil => exact fun best h => ⟨h, by simp⟩
  | cons candidate rest ih =>
    intro best h
    obtain ⟨hbest, hrest⟩ := ih _ h
    unfold longer at hbest
    split at hbest
    · rename_i hticket
      exact ⟨hbest, by simpa [hticket] using hrest⟩
    · cases hbest
    · split at hbest <;> cases hbest

/-- To wake the longest sleeper is a way to wake one. -/
def Waker.longest : Waker I α where
  choose := longestSleeper
  finds_sleeper {threads c i} h := by
    rw [longestSleeper_eq, Option.map_eq_some_iff] at h
    obtain ⟨found, h, rfl⟩ := h
    rcases foldl_longer _ _ h with h | ⟨phase, hmem, hticket⟩
    · cases h
    · exact ⟨phase, List.mem_zipIdx_iff_getElem?.mp hmem, hticket⟩
  finds_any {threads c} h phase hmem := by
    rw [longestSleeper_eq, Option.map_eq_none_iff] at h
    obtain ⟨i, hi⟩ := List.getElem?_of_mem hmem
    exact (foldl_longer_eq_none _ _ h).2 (phase, i) (List.mem_zipIdx_iff_getElem?.mpr hi)

/-! ## Moves and runs -/

/-- A machine whose threads are about to start. A thread that is never
moved might as well not exist, so these are also the runs in which
threads are started one after another. -/
def start (s : σ) (programs : List (Program I α)) : Machine I σ α :=
  ⟨s, 0, 0, programs.map .running⟩

/-- One step of a machine. -/
inductive Move (I : Interface) (α : Type) where
  /-- Thread `i` is served, if it can move; a signal to one sleeper
  reaches the one that `waker` chooses. -/
  | advance (waker : Waker I α) (i : Nat)
  /-- Thread `i` makes its next request, if it has one to make. -/
  | enter (i : Nat)
  /-- The sleep of thread `i` ends, by its deadline or for no reason. -/
  | wake (i : Nat)
  /-- Time passes. -/
  | tick (d : Nat)

/-- The programs that the threads still have to run. -/
def programs (m : Machine I σ α) : List (Program I α) := m.threads.map Phase.program

/-- The request that thread `i` would be served next, and under which
circumstances. -/
def asks? (m : Machine I σ α) (i : Nat) : Option (Visit × I.Request) :=
  match m.threads[i]? with
  | some (.running (.ask r _)) => some (⟨m.clock, m.clock, false⟩, r)
  | some (.asking r _ started waited) => some (⟨started, m.clock, waited⟩, r)
  | _ => none

/-- What happens when thread `i` is served, if it can move. -/
def event? [Server I σ] (m : Machine I σ α) (i : Nat) : Option (Event I σ) :=
  (m.asks? i).map fun (visit, r) => .of i visit m.shared r

end Machine

/-- A run so far: what happened, and what it led to. -/
structure History (I : Interface) (σ α : Type) where
  trace : List (Event I σ)
  machine : Machine I σ α

namespace History

variable [Server I σ]

/-- A run after one more move. -/
def step (h : History I σ α) : Machine.Move I α → History I σ α
  | .advance waker i =>
    ⟨h.trace ++ (h.machine.event? i).toList, h.machine.advance waker.choose i⟩
  | .enter i => ⟨h.trace, h.machine.enter i⟩
  | .wake i => ⟨h.trace, h.machine.wake i⟩
  | .tick d => ⟨h.trace, h.machine.tick d⟩

end History

/-- Plays a schedule. -/
def Machine.run [Server I σ] (m : Machine I σ α) (schedule : List (Machine.Move I α)) :
    History I σ α :=
  schedule.foldl History.step ⟨[], m⟩

namespace Machine

variable [Server I σ] {m : Machine I σ α}

theorem run_concat (schedule : List (Move I α)) (move : Move I α) :
    m.run (schedule ++ [move]) = (m.run schedule).step move := by
  simp [run]

/-- **What holds at the start and is kept by every move holds in every
run.** -/
theorem run_induction {P : History I σ α → Prop} (start : P ⟨[], m⟩)
    (step : ∀ schedule move, P (m.run schedule) → P ((m.run schedule).step move))
    (schedule : List (Move I α)) : P (m.run schedule) := by
  induction schedule using List.reverseRecOn with
  | nil => exact start
  | append_singleton schedule move ih =>
    rw [run_concat]
    exact step schedule move ih

/-! ## What a move does -/

/-- What a sleep has no part in is the same after a signal. -/
theorem map_deliver {read : Phase I α → β} (hread : ∀ phase : Phase I α, read phase.wake = read phase)
    (choose : Chooser I α) (signal : Signal) (threads : List (Phase I α)) :
    (deliver choose signal threads).map read = threads.map read := by
  cases signal with
  | nobody => rfl
  | one c =>
    simp only [deliver]
    split
    · rfl
    · rename_i i _
      apply List.ext_getElem?
      intro j
      simp only [List.getElem?_map, List.getElem?_modify]
      cases threads[j]? <;> simp
      split <;> simp [hread]
  | all c =>
    simp only [deliver, List.map_map]
    apply List.map_congr_left
    intro phase _
    simp only [Function.comp_apply]
    split <;> simp [hread]

theorem programs_deliver (choose : Chooser I α) (signal : Signal) (threads : List (Phase I α)) :
    (deliver choose signal threads).map Phase.program = threads.map Phase.program :=
  map_deliver Phase.program_wake choose signal threads

omit [Server I σ] in
/-- **A thread makes its request**, or has none to make. -/
theorem enter_cases (m : Machine I σ α) (i : Nat) :
    m.enter i = m ∨ ∃ r next, m.threads[i]? = some (.running (.ask r next)) ∧
      m.enter i = { m with threads := m.threads.set i (.asking r next m.clock false) } := by
  match hi : m.threads[i]? with
  | some (.running (.ask r next)) =>
    exact .inr ⟨r, next, rfl, congrArg (fun threads => { m with threads }) (modify_eq_set hi _)⟩
  | some (.running (.done _)) | some (.asking ..) | some (.asleep ..) =>
    have hsame := (modify_eq_set hi (Phase.enter m.clock)).trans (set_eq_self hi)
    exact .inl (congrArg (fun threads => { m with threads }) hsame)
  | none =>
    have hsame : m.threads.modify i (Phase.enter m.clock) = m.threads :=
      List.modify_eq_self (List.getElem?_eq_none_iff.mp hi)
    exact .inl (congrArg (fun threads => { m with threads }) hsame)

omit [Server I σ] in
/-- Who has made its request has as much to do as before. -/
theorem programs_enter (m : Machine I σ α) (i : Nat) : (m.enter i).programs = m.programs := by
  rcases m.enter_cases i with hstay | ⟨r, next, hi, hset⟩
  · rw [hstay]
  · have hprogram : m.programs[i]? = some (.ask r next) := by
      simp [programs, hi, Phase.program]
    rw [hset, programs, List.map_set]
    exact set_eq_self hprogram

omit [Server I σ] in
theorem programs_wake (m : Machine I σ α) (i : Nat) : (m.wake i).programs = m.programs :=
  programs_deliver (fun _ _ => some i) (.one 0) m.threads

/-- A thread that is served moves on; whom the signal wakes has as much
to do as before. -/
theorem programs_serve (choose : Chooser I α) (i : Nat) (visit : Visit) (r : I.Request)
    (next : I.Answer r → Program I α) :
    (m.serve choose i visit r next).programs =
      m.programs.set i ((Server.serve visit m.shared r).resume next) := by
  unfold serve
  split
  · rename_i hserve
    simp [programs, hserve, Served.resume, List.map_set, programs_deliver, Phase.program]
  · rename_i hserve
    simp [programs, hserve, Served.resume, List.map_set, Phase.program]
  · rename_i hserve
    simp [programs, hserve, Served.resume, List.map_set, Phase.program]

theorem shared_serve (choose : Chooser I α) (i : Nat) (visit : Visit) (r : I.Request)
    (next : I.Answer r → Program I α) :
    (m.serve choose i visit r next).shared = (Server.serve visit m.shared r).state := by
  unfold serve
  split <;> rename_i hserve <;> simp [hserve, Served.state]

/-- A thread that is chosen to move is served what it asks, or there is
nothing to serve. -/
theorem advance_cases (m : Machine I σ α) (choose : Chooser I α) (i : Nat) :
    (m.event? i = none ∧ m.advance choose i = m) ∨
      ∃ phase visit r next, m.threads[i]? = some phase ∧ phase.Asks m.clock visit r next ∧
        m.event? i = some (.of i visit m.shared r) ∧
        m.advance choose i = m.serve choose i visit r next := by
  match hi : m.threads[i]? with
  | some (.running (.ask r next)) =>
    exact .inr ⟨_, _, r, next, rfl, .running r next, by simp [event?, asks?, hi],
      by simp [advance, hi]⟩
  | some (.asking r next started waited) =>
    exact .inr ⟨_, _, r, next, rfl, .asking r next started waited, by simp [event?, asks?, hi],
      by simp [advance, hi]⟩
  | some (.running (.done _)) | some (.asleep ..) | none =>
    exact .inl ⟨by simp [event?, asks?, hi], by simp [advance, hi]⟩

/-- What happens when a thread that can move does. -/
theorem advance_of_asks {i : Nat} {phase : Phase I α} {visit : Visit} {r : I.Request}
    {next : I.Answer r → Program I α} (hi : m.threads[i]? = some phase)
    (hasks : phase.Asks m.clock visit r next) (choose : Chooser I α) :
    m.event? i = some (.of i visit m.shared r) ∧
      m.advance choose i = m.serve choose i visit r next := by
  cases hasks <;> exact ⟨by simp [event?, asks?, hi], by simp [advance, hi]⟩

/-- Where nothing happens, nothing changes. -/
theorem advance_of_event?_eq_none {i : Nat} (h : m.event? i = none) (choose : Chooser I α) :
    m.advance choose i = m := by
  rcases m.advance_cases choose i with ⟨-, hstay⟩ | ⟨phase, visit, r, next, -, -, hevent, -⟩
  · exact hstay
  · rw [h] at hevent
    cases hevent

/-- Nothing happens when a thread is chosen that asks nothing. -/
theorem advance_of_not_asks {i : Nat}
    (h : ∀ phase ∈ m.threads[i]?, ∀ visit r next, ¬ phase.Asks m.clock visit r next)
    (choose : Chooser I α) : m.event? i = none ∧ m.advance choose i = m := by
  rcases m.advance_cases choose i with hstay | ⟨phase, visit, r, next, hi, hasks, -, -⟩
  · exact hstay
  · exact absurd hasks (h phase hi visit r next)

end Machine

namespace History

variable [Server I σ]

/-- **A move serves one thread its next request, or nothing that the
threads can see happens.** -/
theorem step_cases (h : History I σ α) (move : Machine.Move I α) :
    ((h.step move).trace = h.trace ∧ (h.step move).machine.shared = h.machine.shared ∧
        (h.step move).machine.programs = h.machine.programs) ∨
      ∃ i visit r next, h.machine.programs[i]? = some (.ask r next) ∧
        (h.step move).trace = h.trace ++ [.of i visit h.machine.shared r] ∧
        (h.step move).machine.shared = (Server.serve visit h.machine.shared r).state ∧
        (h.step move).machine.programs =
          h.machine.programs.set i ((Server.serve visit h.machine.shared r).resume next) := by
  cases move with
  | advance waker i =>
    rcases h.machine.advance_cases waker.choose i with ⟨hevent, hstay⟩ |
      ⟨phase, visit, r, next, hi, hasks, hevent, hserve⟩
    · exact .inl (by simp [step, hevent, hstay])
    · have hprogram : h.machine.programs[i]? = some (.ask r next) := by
        simp [Machine.programs, hi, hasks.program_eq]
      refine .inr ⟨i, visit, r, next, hprogram, ?_, ?_, ?_⟩
      · simp [step, hevent]
      · simp [step, hserve, Machine.shared_serve]
      · simp [step, hserve, Machine.programs_serve]
  | enter i => exact .inl ⟨rfl, rfl, h.machine.programs_enter i⟩
  | wake i => exact .inl ⟨rfl, rfl, h.machine.programs_wake i⟩
  | tick d => exact .inl ⟨rfl, rfl, rfl⟩

end History

/-- No thread comes or goes. -/
theorem Machine.length_programs_run [Server I σ] {m : Machine I σ α}
    (schedule : List (Machine.Move I α)) :
    (m.run schedule).machine.programs.length = m.programs.length := by
  refine run_induction (P := fun h => h.machine.programs.length = m.programs.length) rfl ?_ schedule
  intro schedule move ih
  rcases (m.run schedule).step_cases move with
    ⟨-, -, hprograms⟩ | ⟨i, visit, r, next, -, -, -, hprograms⟩
  · rw [hprograms, ih]
  · rw [hprograms, List.length_set, ih]

theorem Machine.programs_start (s : σ) (programs : List (Program I α)) :
    (Machine.start s programs).programs = programs := by
  simp [Machine.programs, Machine.start, Function.comp_def, Phase.program]

/-! ## Points of a run -/

section Points

variable [Server I σ] {m : Machine I σ α}

/-- What happened before a move has no say in it. -/
theorem History.step_prefix (before : List (Event I σ)) (h : History I σ α)
    (move : Machine.Move I α) :
    (⟨before ++ h.trace, h.machine⟩ : History I σ α).step move =
      ⟨before ++ (h.step move).trace, (h.step move).machine⟩ := by
  cases move with
  | advance waker i => simp [History.step]
  | enter i => rfl
  | wake i => rfl
  | tick d => rfl

/-- **A run goes on from where it stands.** -/
theorem Machine.run_append (schedule later : List (Machine.Move I α)) :
    m.run (schedule ++ later) =
      ⟨(m.run schedule).trace ++ ((m.run schedule).machine.run later).trace,
        ((m.run schedule).machine.run later).machine⟩ := by
  induction later using List.reverseRecOn with
  | nil => simp [Machine.run]
  | append_singleton later move ih =>
    rw [← List.append_assoc, run_concat, run_concat, ih]
    exact History.step_prefix _ _ _

/-- **An event splits the run that it is in**: a run before it, the move
that it comes of, and a run after it. -/
theorem Machine.run_split (schedule : List (Machine.Move I α)) :
    ∀ {before later : List (Event I σ)} {e : Event I σ},
      (m.run schedule).trace = before ++ e :: later →
      ∃ earlier move rest, schedule = earlier ++ move :: rest ∧
        (m.run earlier).trace = before ∧
        (∃ i visit r, e = .of i visit (m.run earlier).machine.shared r) ∧
        (m.run (earlier ++ [move])).trace = before ++ [e] ∧
        (m.run (earlier ++ [move])).machine.shared = e.after := by
  induction schedule using List.reverseRecOn with
  | nil =>
    intro before later e h
    simp [run] at h
  | append_singleton schedule move ih =>
    intro before later e h
    have hrun := run_concat (m := m) schedule move
    rw [hrun] at h
    rcases (m.run schedule).step_cases move with ⟨htrace, -, -⟩ |
      ⟨i, visit, r, next, -, htrace, hshared, -⟩
    · rw [htrace] at h
      obtain ⟨earlier, move', rest, rfl, hpoint⟩ := ih h
      exact ⟨earlier, move', rest ++ [move], by simp, hpoint⟩
    · rw [htrace] at h
      rcases List.eq_nil_or_concat later with rfl | ⟨later, last, rfl⟩
      · obtain ⟨hbefore, he⟩ := List.append_inj' h rfl
        cases he
        refine ⟨schedule, move, [], rfl, hbefore, ⟨i, visit, r, rfl⟩, ?_, ?_⟩
        · rw [hrun, htrace, hbefore]
        · rw [hrun, hshared]
          rfl
      · have h' : (m.run schedule).trace ++ [.of i visit (m.run schedule).machine.shared r] =
            (before ++ e :: later) ++ [last] := by simpa using h
        obtain ⟨earlier, move', rest, rfl, hpoint⟩ := ih (List.append_inj_left' h' rfl)
        exact ⟨earlier, move', rest ++ [move], by simp, hpoint⟩

/-- **An event happens at a point of the run**: an earlier run has the
events before it, and the event is what serving a thread there does. -/
theorem Machine.event_point (schedule : List (Machine.Move I α)) {before later : List (Event I σ)}
    {e : Event I σ} (h : (m.run schedule).trace = before ++ e :: later) :
    ∃ earlier i visit r, (m.run earlier).trace = before ∧
      e = .of i visit (m.run earlier).machine.shared r := by
  obtain ⟨earlier, -, -, -, hbefore, ⟨i, visit, r, he⟩, -⟩ := run_split schedule h
  exact ⟨earlier, i, visit, r, hbefore, he⟩

/-- Every event is one of serving a request. -/
theorem Machine.exists_of_mem_trace {schedule : List (Machine.Move I α)} {e : Event I σ}
    (h : e ∈ (m.run schedule).trace) : ∃ visit, e = .of e.thread visit e.before e.request := by
  obtain ⟨before, later, htrace⟩ := List.append_of_mem h
  obtain ⟨earlier, i, visit, r, -, rfl⟩ := event_point schedule htrace
  exact ⟨visit, rfl⟩

/-- **What comes after an event is a run from the state that it leaves.** -/
theorem Machine.later_eq_run (schedule : List (Machine.Move I α)) {before later : List (Event I σ)}
    {e : Event I σ} (h : (m.run schedule).trace = before ++ e :: later) :
    ∃ (m' : Machine I σ α) (rest : List (Machine.Move I α)), m'.shared = e.after ∧
      (m'.run rest).trace = later ∧ (m'.run rest).machine = (m.run schedule).machine := by
  obtain ⟨earlier, move, rest, rfl, -, -, htrace, hshared⟩ := run_split schedule h
  have happend := run_append (m := m) (earlier ++ [move]) rest
  rw [List.append_assoc, List.singleton_append] at happend
  refine ⟨(m.run (earlier ++ [move])).machine, rest, hshared, ?_, ?_⟩
  · rw [happend, htrace] at h
    simpa using h
  · rw [happend]

/-- Every event is as `P` says, by what happened before it. -/
def AtEach (P : List (Event I σ) → Event I σ → Prop) (trace : List (Event I σ)) : Prop :=
  ∀ before e later, trace = before ++ e :: later → P before e

omit [Server I σ] in
theorem atEach_nil (P : List (Event I σ) → Event I σ → Prop) : AtEach P [] := by
  intro before e later h
  simp at h

omit [Server I σ] in
/-- One event more. -/
theorem AtEach.concat {P : List (Event I σ) → Event I σ → Prop} {trace : List (Event I σ)}
    (h : AtEach P trace) {e : Event I σ} (he : P trace e) : AtEach P (trace ++ [e]) := by
  intro before e' later htrace
  rcases List.eq_nil_or_concat later with rfl | ⟨later, last, rfl⟩
  · obtain ⟨rfl, hlast⟩ := List.append_inj' htrace rfl
    cases hlast
    exact he
  · have hconcat : trace ++ [e] = (before ++ e' :: later) ++ [last] := by simpa using htrace
    exact h before e' later (List.append_inj_left' hconcat rfl)

omit [Server I σ] in
theorem AtEach.mono {P Q : List (Event I σ) → Event I σ → Prop} {trace : List (Event I σ)}
    (h : AtEach P trace) (hPQ : ∀ before e, P before e → Q before e) : AtEach Q trace :=
  fun before e later htrace => hPQ before e (h before e later htrace)

end Points

end MessageIntake
