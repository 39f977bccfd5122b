import MessageIntake.Proofs.Machine.Discipline
import MessageIntake.Transaction.Completion

/-!
# A client whose channels take their time

Where a channel answers at once, nothing can happen while it is called.
Here a call on a channel is a program that the calling thread runs: what
other threads do before it ends, they do while the call is in progress,
and the channel may use the client itself. `Reactions` are these
programs, with those of the participants that are told by a transaction;
the turns count both, so a channel may react in another way each time.
-/

namespace MessageIntake.Client

/-- What channels do with a call, and participants with a notice. -/
structure Reactions where
  channel : Nat → ChannelId → Channel.Call → Action (Result Unit)
  participant : Nat → ParticipantId → Notice → Action (Result Unit)

/-- The objects of a client, with the turns that channels and participants
have had. -/
structure Scene (R : Reactions) where
  world : World
  turn : Nat := 0

variable {R : Reactions}

/-- Whatever is called runs in the thread that calls it. -/
instance : Server interface (Scene R) where
  serve visit s
    | .under lock => s.world.serve visit (fun w => { s with world := w }) lock
    | .outside (.channel id call) =>
      .runs { s with turn := s.turn + 1 } (R.channel s.turn id call)
    | .outside (.log _ _) => .answers s .nobody ()
    | .notify (.delivery e) notice => .runs s (e.notify notice)
    | .notify (.other id) notice =>
      .runs { s with turn := s.turn + 1 } (R.participant s.turn id notice)

namespace Scene

/-- The lifecycle `id` as it stands. -/
def lifecycle (s : Scene R) (id : LifecycleId) : Lifecycle := s.world.lifecycles.get id

/-- The queue `id` as it stands. -/
def queue (s : Scene R) (id : QueueId) : Queue Delivery := s.world.queues.get id

/-- Nothing was called yet, and `id` is the lifecycle of a new consumer;
the other objects are as they may be. -/
def renewed (id : LifecycleId) (w : World) : Scene R :=
  ⟨{ w with lifecycles := w.lifecycles.set id {} }, 0⟩

@[simp] theorem lifecycle_renewed (id : LifecycleId) (w : World) :
    (renewed id w : Scene R).lifecycle id = {} := Store.get_set_self _ _ _

end Scene

/-- A section of a lifecycle is done at once. -/
theorem serve_lifecycle (visit : Visit) (s : Scene R) (id : LifecycleId)
    (part : Lifecycle.Section) :
    Server.serve (I := interface) visit s (.under (.lifecycle id part)) =
      .answers { s with world := { s.world with
          lifecycles := s.world.lifecycles.set id ((s.lifecycle id).run part).1 } }
        .nobody ((s.lifecycle id).run part).2 := rfl

/-- What it makes of the lifecycle. -/
theorem lifecycle_serve (visit : Visit) (s : Scene R) (id : LifecycleId)
    (part : Lifecycle.Section) :
    (Server.serve (I := interface) visit s (.under (.lifecycle id part))).state.lifecycle id =
      ((s.lifecycle id).run part).1 := Store.get_set_self _ _ _

/-- Nothing else changes a lifecycle. -/
theorem lifecycle_eq_of_ne {id : LifecycleId} {r : Request}
    (hr : ∀ part, r ≠ .under (.lifecycle id part)) (visit : Visit) (s : Scene R) :
    (Server.serve (I := interface) visit s r).state.lifecycle id = s.lifecycle id := by
  match r with
  | .under (.lifecycle id' part) =>
    have hne : id ≠ id' := by
      rintro rfl
      exact hr part rfl
    exact Store.get_set_of_ne _ hne _
  | .under (.queue _ call) =>
    simp only [Server.serve, World.serve, Queue.Pass.served]
    split <;> rfl
  | .under (.transaction _ _) | .under .newFlag | .under (.settle _) | .outside (.channel _ _)
  | .outside (.log _ _) | .notify (.delivery _) _ | .notify (.other _) _ => rfl

/-- A pass of a queue through its lock, as the scene sees it. -/
theorem queue_serve (visit : Visit) (s : Scene R) (id : QueueId) (call : Queue.Call Delivery) :
    (Server.serve (I := interface) visit s (.under (.queue id call))).state.world =
      { s.world with queues := s.world.queues.set id ((s.queue id).pass visit call).queue } := by
  simp only [Server.serve, World.serve, Queue.Pass.served]
  split <;> rfl

/-- **A queue is changed by its own calls only.** -/
theorem queue_serve_cases (visit : Visit) (s : Scene R) (r : Request) (id : QueueId) :
    (Server.serve (I := interface) visit s r).state.queue id = s.queue id ∨
      ∃ call, r = .under (.queue id call) ∧
        (Server.serve (I := interface) visit s r).state.queue id =
          ((s.queue id).pass visit call).queue := by
  match r with
  | .under (.queue id' call) =>
    rw [Scene.queue, queue_serve]
    by_cases hid : id = id'
    · subst hid
      exact .inr ⟨call, rfl, Store.get_set_self _ _ _⟩
    · exact .inl (Store.get_set_of_ne _ hid _)
  | .under (.lifecycle _ _) | .under (.transaction _ _) | .under .newFlag | .under (.settle _)
  | .outside (.channel _ _) | .outside (.log _ _) | .notify (.delivery _) _
  | .notify (.other _) _ => exact .inl rfl

end MessageIntake.Client
