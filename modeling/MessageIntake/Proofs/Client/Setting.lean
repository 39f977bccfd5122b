import MessageIntake.Proofs.Machine.Discipline
import MessageIntake.Transaction.Completion

/-!
# A client among any surroundings

The client leaves open what a channel answers and what a participant
does with a notice. `Surroundings` decides both, in any way it likes:
the answers are given by turns, so any sequence of them is possible, and
a participant may run any program of the client while it is told. A
statement for all surroundings and all schedules is one for every
reaction of the channels and the participants.
-/

namespace MessageIntake.Client

/-- What answers calls to the outside, and what participants do with a
notice. The turns count both. -/
structure Surroundings where
  answer : Nat → (call : Outside) → call.Answer
  react : Nat → ParticipantId → Notice → Action (Result Unit)

/-- Surroundings in which everything succeeds. -/
instance : Inhabited Surroundings where
  default :=
    { answer := fun _ call => match call with
        | .channel _ _ => .ok ()
        | .log _ _ => ()
      react := fun _ _ _ => .done (.ok ()) }

/-- The objects of a client, with the turns that its surroundings have
had. -/
structure Setting (S : Surroundings) where
  world : World
  turn : Nat := 0

variable {S : Surroundings}

/-- A participant is told by running what it does, in the thread that
tells it; an enlistment settles its delivery. -/
instance : Server interface (Setting S) where
  serve visit s
    | .under lock => s.world.serve visit (fun w => { s with world := w }) lock
    | .outside call => .answers { s with turn := s.turn + 1 } .nobody (S.answer s.turn call)
    | .notify (.delivery e) notice => .runs s (e.notify notice)
    | .notify (.other id) notice =>
      .runs { s with turn := s.turn + 1 } (S.react s.turn id notice)

/-- The events of a client. -/
abbrev Trace (S : Surroundings) := List (Event interface (Setting S))

/-- The events of thread `i`. -/
def eventsOf (i : Nat) (trace : Trace S) : Trace S := trace.filter fun e => e.thread = i

/-- The transaction `t` as it stands. -/
def Setting.transaction (s : Setting S) (t : TransactionId) : Transaction :=
  s.world.transactions.get t

/-- The surroundings have had no turn yet, and `t` is a new transaction;
the other objects are as they may be. -/
def Setting.renewed (t : TransactionId) (w : World) : Setting S :=
  ⟨{ w with transactions := w.transactions.set t {} }, 0⟩

@[simp] theorem Setting.transaction_renewed (t : TransactionId) (w : World) :
    (renewed t w : Setting S).transaction t = {} := Store.get_set_self _ _ _

/-! ## What serving does to a transaction -/

/-- Requests that have nothing to do with the transaction `t`. -/
def Request.Elsewhere (t : TransactionId) : Request → Prop
  | .under (.transaction id _) => id ≠ t
  | .under _ | .outside _ => True
  | .notify _ _ => False

theorem Request.cases_of (t : TransactionId) (r : Request) :
    r.Elsewhere t ∨ (∃ part, r = .under (.transaction t part)) ∨
      ∃ p notice, r = .notify p notice := by
  match r with
  | .under (.transaction id part) =>
    by_cases hid : id = t
    · exact .inr (.inl ⟨part, by rw [hid]⟩)
    · exact .inl hid
  | .under (.queue _ _) | .under (.lifecycle _ _) | .under .newFlag | .under (.settle _)
  | .outside _ => exact .inl trivial
  | .notify p notice => exact .inr (.inr ⟨p, notice, rfl⟩)

/-- The state of a transaction is changed by its sections only. -/
theorem Request.Elsewhere.transaction_eq {t : TransactionId} {r : Request} (h : r.Elsewhere t)
    (visit : Visit) (s : Setting S) :
    (Server.serve (I := interface) visit s r).state.transaction t = s.transaction t := by
  match r with
  | .under (.queue id call) =>
    simp only [Server.serve, World.serve, Queue.Pass.served]
    split <;> rfl
  | .under (.transaction id part) => exact Store.get_set_of_ne _ (Ne.symm h) _
  | .under (.lifecycle _ _) | .under .newFlag | .under (.settle _) | .outside _ => rfl
  | .notify _ _ => exact h.elim

/-- Nothing but a notice is answered by a program. -/
theorem Request.Elsewhere.serve_ne_runs {t : TransactionId} {r : Request} (h : r.Elsewhere t)
    (visit : Visit) (s s' : Setting S) (p : Action r.Answer) :
    Server.serve (I := interface) visit s r ≠ .runs s' p := by
  match r with
  | .under (.queue id call) =>
    simp only [Server.serve, World.serve, Queue.Pass.served]
    split <;> nofun
  | .under (.transaction _ _) | .under (.lifecycle _ _) | .under .newFlag | .under (.settle _)
  | .outside _ => nofun
  | .notify _ _ => exact h.elim

/-- Only a call of a queue sleeps. -/
theorem Request.queue_of_serve_sleeps {visit : Visit} {s s' : Setting S} {r : Request}
    {c : Condition} {deadline : Option Instant}
    (h : Server.serve (I := interface) visit s r = .sleeps s' c deadline) :
    ∃ id call, r = .under (.queue id call) := by
  match r with
  | .under (.queue id call) => exact ⟨id, call, rfl⟩
  | .under (.lifecycle _ _) | .under (.transaction _ _) | .under .newFlag | .under (.settle _)
  | .outside _ => cases h
  | .notify (.delivery _) _ | .notify (.other _) _ => cases h

/-- A section of a transaction is done at once. -/
theorem serve_section (visit : Visit) (s : Setting S) (t : TransactionId)
    (part : Transaction.Section) :
    ∃ s' : Setting S, s'.transaction t = ((s.transaction t).run part).1 ∧
      Server.serve (I := interface) visit s (.under (.transaction t part)) =
        .answers s' .nobody ((s.transaction t).run part).2 :=
  ⟨{ s with world := { s.world with
      transactions := s.world.transactions.set t ((s.transaction t).run part).1 } },
    Store.get_set_self _ _ _, rfl⟩

/-- Only a notice is answered by a program. -/
theorem Request.notify_of_serve_runs {visit : Visit} {s s' : Setting S} {r : Request}
    {p : Action r.Answer} (h : Server.serve (I := interface) visit s r = .runs s' p) :
    ∃ q notice, r = .notify q notice := by
  rcases r.cases_of 0 with helse | ⟨part, rfl⟩ | hnotify
  · exact absurd h (helse.serve_ne_runs visit s s' p)
  · obtain ⟨s'', -, hserve⟩ := serve_section visit s 0 part
    rw [hserve] at h
    cases h
  · exact hnotify

/-- No program runs for a request that is no notice. -/
theorem Request.ne_runs_of {Allowed : Request → Prop}
    (h : ∀ participant notice, ¬ Allowed (.notify participant notice)) (r : Request)
    (hr : Allowed r) (visit : Visit) (s s' : Setting S) (p : Action r.Answer) :
    Server.serve (I := interface) visit s r ≠ .runs s' p := by
  intro hserve
  obtain ⟨participant, notice, rfl⟩ := Request.notify_of_serve_runs hserve
  exact h participant notice hr

/-! ## Following a discipline -/

variable {α β γ : Type} {D : Discipline interface γ} {g : γ}

/-- A program that goes on after success only. -/
theorem Action.follows_andThen {Mid : Result α → γ → Prop} {Post : Result β → γ → Prop}
    {action : Action (Result α)} {next : α → Action (Result β)}
    (h : action.Follows D Mid g) (hok : ∀ a g', Mid (.ok a) g' → (next a).Follows D Post g')
    (herror : ∀ e g', Mid (.error e) g' → Post (.error e) g') :
    (action.andThen next).Follows D Post g := by
  refine h.bind fun r g' hr => ?_
  cases r with
  | ok a => exact hok a g' hr
  | error e => exact herror e g' hr

end MessageIntake.Client
