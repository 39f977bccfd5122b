import MessageIntake.Proofs.Client.Scene
import MessageIntake.Proofs.Client.Setting

/-!
# States that carry the world of a client

The objects of a client are the same whether its channels answer at once
(`Setting`) or take their time (`Scene`), and a section under a lock is served by
them alone. What a thread does in such sections is therefore proved once, for
every state that carries a world (`Carries`).
-/

namespace MessageIntake.Client

/-- **A state that carries the objects of a client**, serves sections by them, and changes them
in nothing else. -/
class Carries (σ : Type) [Server interface σ] where
  world : σ → World
  store : σ → World → σ
  serve_under (visit : Visit) (s : σ) (lock : Section) :
    Server.serve (I := interface) visit s (.under lock) = (world s).serve visit (store s) lock
  serve_outside (visit : Visit) (s : σ) (call : Outside) :
    world (Server.serve (I := interface) visit s (.outside call)).state = world s
  serve_notify (visit : Visit) (s : σ) (participant : Participant) (notice : Notice) :
    world (Server.serve (I := interface) visit s (.notify participant notice)).state = world s
  world_store (s : σ) (w : World) : world (store s w) = w
  store_world (s : σ) : store s (world s) = s

instance (S : Surroundings) : Carries (Setting S) where
  world := Setting.world
  store s w := { s with world := w }
  serve_under _ _ _ := rfl
  serve_outside _ _ _ := rfl
  serve_notify _ _ participant _ := by cases participant <;> rfl
  world_store _ _ := rfl
  store_world _ := rfl

instance (R : Reactions) : Carries (Scene R) where
  world := Scene.world
  store s w := { s with world := w }
  serve_under _ _ _ := rfl
  serve_outside _ _ call := by cases call <;> rfl
  serve_notify _ _ participant _ := by cases participant <;> rfl
  world_store _ _ := rfl
  store_world _ := rfl

/-- Whether a request is a call of the queue `id`. -/
def Request.On (id : QueueId) : Request → Bool
  | .under (.queue id' _) => id' = id
  | _ => false

theorem Request.exists_of_on {id : QueueId} {r : Request} (h : r.On id = true) :
    ∃ call, r = .under (.queue id call) := by
  unfold Request.On at h
  split at h
  · obtain rfl := of_decide_eq_true h
    exact ⟨_, rfl⟩
  · cases h

/-- Worlds in which all objects are the same. A store may have been given room for more. -/
structure World.Same (w w' : World) : Prop where
  queues : ∀ id, w.queues.get id = w'.queues.get id
  lifecycles : ∀ id, w.lifecycles.get id = w'.lifecycles.get id
  transactions : ∀ id, w.transactions.get id = w'.transactions.get id
  settled : ∀ id, w.settled.get id = w'.settled.get id
  nextFlag : w.nextFlag = w'.nextFlag

namespace World.Same

variable {w w' w'' : World}

theorem trans (h : w.Same w') (h' : w'.Same w'') : w.Same w'' where
  queues id := (h.queues id).trans (h'.queues id)
  lifecycles id := (h.lifecycles id).trans (h'.lifecycles id)
  transactions id := (h.transactions id).trans (h'.transactions id)
  settled id := (h.settled id).trans (h'.settled id)
  nextFlag := h.nextFlag.trans h'.nextFlag

/-- To put back a queue that is as it was. -/
theorem set_queue (w : World) (id : QueueId) {q : Queue Delivery} (hq : w.queues.get id = q) :
    World.Same { w with queues := w.queues.set id q } w := by
  refine ⟨fun id' => ?_, fun _ => rfl, fun _ => rfl, fun _ => rfl, rfl⟩
  by_cases hid : id' = id
  · subst hid
    rw [Store.get_set_self, hq]
  · exact Store.get_set_of_ne _ hid _

/-- To put back a transaction that is as it was. -/
theorem set_transaction (w : World) (id : TransactionId) {t : Transaction}
    (ht : w.transactions.get id = t) :
    World.Same { w with transactions := w.transactions.set id t } w := by
  refine ⟨fun _ => rfl, fun _ => rfl, fun id' => ?_, fun _ => rfl, rfl⟩
  by_cases hid : id' = id
  · subst hid
    rw [Store.get_set_self, ht]
  · exact Store.get_set_of_ne _ hid _

end World.Same

namespace Carries

variable {σ α : Type} [Server interface σ] [Carries σ]

/-- The transaction `t` as it stands. -/
def transaction (s : σ) (t : TransactionId) : Transaction := (world s).transactions.get t

/-- The queue `id` as it stands. -/
def queue (s : σ) (id : QueueId) : Queue Delivery := (world s).queues.get id

/-- A state with another queue `id`. -/
def setQueue (s : σ) (id : QueueId) (q : Queue Delivery) : σ :=
  store s { world s with queues := (world s).queues.set id q }

/-- The state after the transaction `t` was asked whether it is active. -/
def asked (s : σ) (t : TransactionId) : σ :=
  store s { world s with transactions := (world s).transactions.set t (transaction s t) }

/-- A pass of a queue through its lock. -/
theorem serve_queue (visit : Visit) (s : σ) (id : QueueId) (call : Queue.Call Delivery) :
    Server.serve (I := interface) visit s (.under (.queue id call)) =
      ((queue s id).pass visit call).served id (setQueue s id) :=
  serve_under visit s (.queue id call)

/-- A transaction is asked whether it is active. -/
theorem serve_ensureActive (visit : Visit) (s : σ) (t : TransactionId) :
    Server.serve (I := interface) visit s (.under (.transaction t .ensureActive)) =
      .answers (asked s t) .nobody (transaction s t).ensureActive :=
  serve_under visit s (.transaction t .ensureActive)

theorem world_asked (s : σ) (t : TransactionId) : (world (asked s t)).Same (world s) := by
  rw [asked, world_store]
  exact World.Same.set_transaction _ _ rfl

theorem queue_asked (s : σ) (t : TransactionId) (id : QueueId) :
    queue (asked s t) id = queue s id := (world_asked s t).queues id

theorem world_setQueue (s : σ) (id : QueueId) (q : Queue Delivery) :
    world (setQueue s id q) = { world s with queues := (world s).queues.set id q } :=
  world_store s _

/-- **A queue is changed by its own calls**, a pass at a time, … -/
theorem queue_serve (visit : Visit) (s : σ) (id : QueueId) (call : Queue.Call Delivery) :
    queue (Server.serve (I := interface) visit s (.under (.queue id call))).state id =
      ((queue s id).pass visit call).queue := by
  have hself (q : Queue Delivery) : queue (setQueue s id q) id = q := by
    rw [queue, world_setQueue, Store.get_set_self]
  rw [serve_queue, Queue.Pass.served]
  split <;> exact hself _

/-- … and by nothing else. -/
theorem queue_serve_of_not_on {r : Request} {id : QueueId} (h : r.On id = false) (visit : Visit)
    (s : σ) : queue (Server.serve (I := interface) visit s r).state id = queue s id := by
  cases r with
  | outside call => exact congrArg (·.queues.get id) (serve_outside visit s call)
  | notify participant notice =>
    exact congrArg (·.queues.get id) (serve_notify visit s participant notice)
  | under lock =>
    cases lock with
    | queue id' call =>
      have hne : id ≠ id' := Ne.symm (of_decide_eq_false h)
      have hother (q : Queue Delivery) : queue (setQueue s id' q) id = queue s id := by
        rw [queue, world_setQueue, Store.get_set_of_ne _ hne]
        rfl
      rw [serve_queue, Queue.Pass.served]
      split <;> exact hother _
    | lifecycle | transaction | newFlag | settle =>
      rw [serve_under]
      exact congrArg (·.queues.get id) (world_store s _)

/-- A transaction that is not active was made. -/
theorem lt_size_of_status_ne {s : σ} {t : TransactionId} (h : (transaction s t).status ≠ .active) :
    t < (world s).transactions.cells.size := by
  by_contra hge
  refine h ?_
  have hdefault : transaction s t = default := by
    simp [transaction, Store.get, Array.getD, hge]
  rw [hdefault]
  rfl

/-- **To ask a transaction that is not active changes nothing.** -/
theorem asked_eq_self {s : σ} {t : TransactionId} (h : (transaction s t).status ≠ .active) :
    asked s t = s := by
  rw [asked, transaction, Store.set_get_self _ (lt_size_of_status_ne h)]
  exact store_world s

end Carries

end MessageIntake.Client
