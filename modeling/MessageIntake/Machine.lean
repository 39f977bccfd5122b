import MessageIntake.Program
import MessageIntake.Timeout

/-!
# Threads that share a state

A machine runs any number of programs, one per thread, over one shared
state. Its atomic steps are the requests: a thread's next request is
served in one step, which changes the shared state and either answers,
or puts the thread to sleep on a condition, or first runs a program
whose result is the answer. A sleeping thread is woken by a signal on
its condition, by its deadline, or for no reason; a woken thread asks
its request again. A thread may also make its request first and be
served some time later, as one does that has to wait for a lock: its
time then counts from when it made the request.

`Machine.advance`, `Machine.enter`, `Machine.wake` and `Machine.tick`
are the single steps. Which of them comes next is left open here;
`Machine.runUntil` is one way to choose.
-/

namespace MessageIntake

/-- Names a condition that threads sleep on. -/
abbrev Condition := Nat

/-- What a served request does to the threads asleep on a condition. -/
inductive Signal where
  | nobody
  | one (condition : Condition)
  | all (condition : Condition)
  deriving DecidableEq, Repr

/-- The circumstances under which a request is served: when it was made,
the time now, and whether its thread has slept in between. -/
structure Visit where
  started : Instant
  now : Instant
  waited : Bool

/-- How serving a request ends. -/
inductive Served (I : Interface) (σ : Type) (β : Type) : Type where
  | answers (state : σ) (signal : Signal) (answer : β)
  | sleeps (state : σ) (condition : Condition) (deadline : Option Instant)
  | runs (state : σ) (program : Program I β)

/-- A state that can serve the requests of `I`. -/
class Server (I : Interface) (σ : Type) where
  serve : Visit → σ → (r : I.Request) → Served I σ (I.Answer r)

/-- Where a thread stands. One that is `asking` has made its request at
`started` and is to be served, for the first time or again, by whether it
has `waited`. -/
inductive Phase (I : Interface) (α : Type) : Type where
  | running (program : Program I α)
  | asking (request : I.Request) (next : I.Answer request → Program I α) (started : Instant)
      (waited : Bool)
  | asleep (request : I.Request) (next : I.Answer request → Program I α) (started : Instant)
      (condition : Condition) (deadline : Option Instant) (ticket : Nat)

namespace Phase

variable {I : Interface} {α : Type}

/-- The result of a thread that has ended. -/
def result? : Phase I α → Option α
  | .running (.done a) => some a
  | _ => none

/-- Whether the thread has a request to ask. -/
def isRunnable : Phase I α → Bool
  | .running (.ask _ _) | .asking .. => true
  | _ => false

/-- The deadline of a sleeping thread. -/
def deadline? : Phase I α → Option Instant
  | .asleep _ _ _ _ deadline _ => deadline
  | _ => none

/-- Makes the next request; a thread that has nothing to ask, or has
asked, stays as it is. -/
def enter (now : Instant) : Phase I α → Phase I α
  | .running (.ask r next) => .asking r next now false
  | phase => phase

/-- Ends a sleep; any other thread stays as it is. -/
def wake : Phase I α → Phase I α
  | .asleep r next started _ _ _ => .asking r next started true
  | phase => phase

/-- The ticket of a thread asleep on `condition`. -/
def ticket? (condition : Condition) : Phase I α → Option Nat
  | .asleep _ _ _ c _ ticket => if c = condition then some ticket else none
  | _ => none

end Phase

/-- Threads over a shared state. Threads are numbered from zero; tickets
number the sleeps, so that the lowest belongs to the longest sleeper. -/
structure Machine (I : Interface) (σ α : Type) where
  shared : σ
  clock : Instant
  tickets : Nat
  threads : List (Phase I α)

namespace Machine

variable {I : Interface} {σ α : Type}

/-- A machine without threads. -/
def ofState (s : σ) : Machine I σ α := ⟨s, 0, 0, []⟩

/-- Adds a thread, numbered by the threads before it. -/
def spawn (m : Machine I σ α) (p : Program I α) : Machine I σ α :=
  { m with threads := m.threads ++ [.running p] }

/-- Gives thread `i` a new program. -/
def assign (m : Machine I σ α) (i : Nat) (p : Program I α) : Machine I σ α :=
  { m with threads := m.threads.set i (.running p) }

/-- Has thread `i` make its next request, to be served later. -/
def enter (m : Machine I σ α) (i : Nat) : Machine I σ α :=
  { m with threads := m.threads.modify i (Phase.enter m.clock) }

/-- Ends the sleep of thread `i`, whatever it waits for. -/
def wake (m : Machine I σ α) (i : Nat) : Machine I σ α :=
  { m with threads := m.threads.modify i Phase.wake }

/-- Lets time pass. -/
def tick (m : Machine I σ α) (d : Nat) : Machine I σ α :=
  { m with clock := m.clock + d }

/-- Chooses whom to wake among threads asleep on a condition. -/
abbrev Chooser (I : Interface) (α : Type) := List (Phase I α) → Condition → Option Nat

/-- The longest sleeper on a condition: the thread with the lowest
ticket. -/
def longestSleeper : Chooser I α := fun threads condition =>
  let lowest := threads.zipIdx.foldl (fun best (phase, i) =>
    match phase.ticket? condition, best with
    | none, _ => best
    | some ticket, none => some (ticket, i)
    | some ticket, some (least, _) => if ticket < least then some (ticket, i) else best) none
  lowest.map fun (found : Nat × Nat) => found.2

/-- Wakes the threads that a signal is for. -/
def deliver (choose : Chooser I α) (signal : Signal) (threads : List (Phase I α)) :
    List (Phase I α) :=
  match signal with
  | .nobody => threads
  | .one condition =>
    match choose threads condition with
    | none => threads
    | some i => threads.modify i Phase.wake
  | .all condition =>
    threads.map fun phase => if (phase.ticket? condition).isSome then phase.wake else phase

/-- Serves request `r` of thread `i`, which goes on with `next`. -/
def serve [Server I σ] (choose : Chooser I α) (m : Machine I σ α) (i : Nat) (visit : Visit)
    (r : I.Request) (next : I.Answer r → Program I α) : Machine I σ α :=
  match Server.serve visit m.shared r with
  | .answers s signal answer =>
    { m with shared := s, threads := (deliver choose signal m.threads).set i (.running (next answer)) }
  | .sleeps s condition deadline =>
    { m with
      shared := s, tickets := m.tickets + 1
      threads := m.threads.set i (.asleep r next visit.started condition deadline m.tickets) }
  -- The program takes the place of the request: its result is the answer.
  | .runs s p => { m with shared := s, threads := m.threads.set i (.running (p.bind next)) }

/-- One step of thread `i`: its next request is served, which it makes now
unless it has made it before. A thread that is asleep or has ended does not
move. -/
def advance [Server I σ] (choose : Chooser I α) (m : Machine I σ α) (i : Nat) : Machine I σ α :=
  match m.threads[i]? with
  | some (.running (.ask r next)) => m.serve choose i ⟨m.clock, m.clock, false⟩ r next
  | some (.asking r next started waited) => m.serve choose i ⟨started, m.clock, waited⟩ r next
  | _ => m

/-! ## One schedule

A thread that is started moves first, until it sleeps or ends; then the
one that started it goes on. Otherwise the lowest runnable thread moves,
save that one thread may be preferred. Time stands still while a thread
can move; when none can, it jumps to the earliest deadline and wakes the
threads that reach it. -/

/-- The result of thread `i`, once it has ended. -/
def result? (m : Machine I σ α) (i : Nat) : Option α :=
  m.threads[i]?.bind Phase.result?

/-- Whether thread `i` can take a step. -/
def canMove (m : Machine I σ α) (i : Nat) : Bool :=
  (m.threads[i]?.map Phase.isRunnable).getD false

/-- The thread to move next. -/
def pick? (m : Machine I σ α) (prefer : Nat) : Option Nat :=
  if m.canMove prefer then some prefer else m.threads.findIdx? Phase.isRunnable

/-- The earliest deadline of a sleeping thread. -/
def earliest? (m : Machine I σ α) : Option Instant :=
  (m.threads.filterMap Phase.deadline?).min?

/-- Moves the clock to `t` and wakes the threads whose deadline is then
reached. -/
def jump (m : Machine I σ α) (t : Instant) : Machine I σ α :=
  let now := max m.clock t
  { m with
    clock := now
    threads := m.threads.map fun phase =>
      match phase.deadline? with
      | some d => if d ≤ now then phase.wake else phase
      | none => phase }

/-- Runs until `stop` holds, the threads can never move again, or `fuel`
steps are taken. The state may ask for a thread to be started, which
`recruit` takes from it; `front` are the threads so started that have
not rested yet, the last first. -/
def runUntil [Server I σ] (recruit : σ → Option (Program I α × σ))
    (stop : Machine I σ α → Bool) (prefer : Nat) :
    (fuel : Nat) → (front : List Nat) → Machine I σ α → Machine I σ α
  | 0, _, m => m
  | fuel + 1, front, m =>
    match recruit m.shared with
    | some (p, shared) =>
      runUntil recruit stop prefer fuel (m.threads.length :: front) ({ m with shared }.spawn p)
    | none =>
      let front := front.dropWhile fun i => !m.canMove i
      if front.isEmpty && stop m then m
      else match front.head?.or (m.pick? prefer) with
        | some i => runUntil recruit stop prefer fuel front (m.advance longestSleeper i)
        | none => match m.earliest? with
          | some t => runUntil recruit stop prefer fuel front (m.jump t)
          | none => m

/-- Whether no thread can move before time passes. -/
def isQuiet (m : Machine I σ α) : Bool := !m.threads.any Phase.isRunnable

end Machine

end MessageIntake
