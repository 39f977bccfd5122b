import MessageIntake.Machine

/-!
# Scripts

A script is a list of steps for a machine. Each step runs on a thread,
and the next one waits for its reply; threads that the step has started
on the side or woken move before the next step too, until none can.
After a step the shared state is observed.
-/

namespace MessageIntake

/-- How the steps of a script run: the program of a step, the thread that
the shared state asks for, and what an observer sees after a step. -/
structure Conduct (I : Interface) (σ κ ρ ω : Type) where
  program : κ → Program I ρ
  recruit : σ → Option (Program I ρ × σ)
  observe : κ → σ → ω × σ

namespace Conduct

variable {I : Interface} {σ κ ρ ω : Type} [Server I σ]

/-- Carries out one step. There is no reply if the threads can never move
again before it has one. -/
def perform (c : Conduct I σ κ ρ ω) (fuel : Nat) (m : Machine I σ ρ) (step : κ) :
    Option ρ × Machine I σ ρ :=
  let i := m.threads.length
  let replied := fun (m : Machine I σ ρ) => (m.result? i).isSome
  let m := (m.spawn (c.program step)).runUntil c.recruit replied i fuel []
  match m.result? i with
  | some r => (some r, m.runUntil c.recruit Machine.isQuiet 0 fuel [])
  | none => (none, m)

/-- Carries out steps one after another. -/
def performAll (c : Conduct I σ κ ρ ω) (fuel : Nat) :
    Machine I σ ρ → List κ → List (Option ρ × ω)
  | _, [] => []
  | m, step :: rest =>
    let (reply, m) := c.perform fuel m step
    let (seen, shared) := c.observe step m.shared
    (reply, seen) :: performAll c fuel { m with shared } rest

/-- Carries out a script from a state without threads. -/
def run (c : Conduct I σ κ ρ ω) (fuel : Nat) (shared : σ) (steps : List κ) :
    List (Option ρ × ω) :=
  c.performAll fuel (Machine.ofState shared) steps

end Conduct

end MessageIntake
