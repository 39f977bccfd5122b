/-!
# Threads on the side

A crew is the threads that were started under a name. A thread is
started, ends with a result, and is waited for once; until then it is
outstanding. Its name may be given to another thread meanwhile, and then
nobody can wait for it any more.
-/

namespace MessageIntake

/-- The threads that do steps of `κ` on the side, each with a number, and
what they have ended with. -/
structure Crew (κ ρ : Type) where
  /-- The threads still to be waited for, by name. -/
  outstanding : List (String × Nat) := []
  results : List (Nat × ρ) := []
  /-- How many threads there have been. -/
  count : Nat := 0
  /-- The thread that is to start now, and its step. -/
  starting : Option (Nat × κ) := none

namespace Crew

variable {κ ρ : Type}

/-- Asks for a thread for `step`. -/
def start (c : Crew κ ρ) (name : String) (step : κ) : Crew κ ρ :=
  { c with
    outstanding := (name, c.count) :: c.outstanding.filter (·.1 != name)
    count := c.count + 1
    starting := some (c.count, step) }

/-- The thread that is to start now, with the crew once it has. -/
def next? (c : Crew κ ρ) : Option (Nat × κ × Crew κ ρ) :=
  c.starting.map fun (thread, step) => (thread, step, { c with starting := none })

/-- Notes what a thread has ended with. -/
def finish (c : Crew κ ρ) (thread : Nat) (result : ρ) : Crew κ ρ :=
  { c with results := (thread, result) :: c.results }

/-- Calls threads in by name, one after another. Nothing from the first
that is not outstanding on. -/
def callIn : (names : List String) → Crew κ ρ → Option (List Nat) × Crew κ ρ
  | [], c => (some [], c)
  | name :: names, c =>
    match c.outstanding.lookup name with
    | none => (none, c)
    | some thread =>
      let c := { c with outstanding := c.outstanding.filter (·.1 != name) }
      let (threads, c) := callIn names c
      (threads.map (thread :: ·), c)

/-- What threads have ended with, once all of them have. -/
def results? (c : Crew κ ρ) (threads : List Nat) : Option (List ρ) :=
  threads.mapM fun thread => c.results.lookup thread

/-- Whether no thread is to be waited for. -/
def isIn (c : Crew κ ρ) : Bool := c.outstanding.isEmpty

@[simp] theorem results?_finish (c : Crew κ ρ) (thread : Nat) (result : ρ) :
    (c.finish thread result).results? [thread] = some [result] := by
  simp [results?, finish]

end Crew

end MessageIntake
