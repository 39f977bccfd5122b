import MessageIntake.Proofs.Consumer.Acknowledgment
import MessageIntake.Proofs.Consumer.Ways
import MessageIntake.Proofs.Machine.Alike

/-!
# Readers cannot tell how a consumer was ended

A consumer is ended by the application, by the broker, or with its channel, and
each may come in the midst of another. Every way cancels its lifecycle and closes
its queue, but they leave different notes in the lifecycle: whether the broker
was asked to cancel, and why the transport was lost. Nobody who uses a consumer
reads these notes (`use_unseeing`). So worlds that differ in them only (`Like`)
are served alike (`serve_alike`), and whatever is done later is done the same
after one way as after the other (`ends_alike`).
-/

namespace MessageIntake.Uniform

open Client Acknowledgment Ways
open Cancellation (Way)

variable {R : Reactions} {c : Consumer} {α β : Type}

/-! ## Who cannot tell -/

/-- Requests that do not look at the lifecycle of the consumer. -/
def Unseeing (c : Consumer) : Request → Prop
  | .under (.lifecycle id .look) => id ≠ c.lifecycle
  | .under _ | .outside _ | .notify _ _ => True

/-- Channels and participants that do not look at it either. -/
structure Blind (c : Consumer) (R : Reactions) : Prop where
  channel : ∀ turn id call, (R.channel turn id call).Asks (Unseeing c)
  participant : ∀ turn id notice, (R.participant turn id notice).Asks (Unseeing c)

/-- **Worlds that look the same to whoever does not look at the lifecycle of
the consumer**: it is canceled in both, under the same tag, and nothing else
differs. -/
structure Like (c : Consumer) (w w' : World) : Prop where
  canceled : Canceled c w
  canceled' : Canceled c w'
  tag : (w.lifecycles.get c.lifecycle).consumerTag = (w'.lifecycles.get c.lifecycle).consumerTag
  lifecycles : ∀ id ≠ c.lifecycle, w.lifecycles.get id = w'.lifecycles.get id
  queues : ∀ id, w.queues.get id = w'.queues.get id
  transactions : w.transactions = w'.transactions
  settled : w.settled = w'.settled
  nextFlag : w.nextFlag = w'.nextFlag

/-- Scenes that look the same, and go on alike. -/
structure LikeScene (c : Consumer) (s s' : Scene R) : Prop where
  world : Like c s.world s'.world
  turn : s.turn = s'.turn

/-! ## They are served alike -/

section Serving

variable {w w' : World} {s s' : Scene R}

/-- Two lifecycles that are canceled under the same tag answer the same, unless
they are looked at. -/
theorem run_answer_eq {l l' : Lifecycle} (h : l.state = .canceled) (h' : l'.state = .canceled)
    (htag : l.consumerTag = l'.consumerTag) {part : Lifecycle.Section} (hpart : part ≠ .look) :
    (l.run part).2 = (l'.run part).2 := by
  obtain ⟨state, tag, reason, requested⟩ := l
  obtain ⟨state', tag', reason', requested'⟩ := l'
  obtain rfl : state = .canceled := h
  obtain rfl : state' = .canceled := h'
  obtain rfl : tag = tag' := htag
  cases part with
  | look => exact absurd rfl hpart
  | start | requestCancel | loseTransport | cancel => rfl

theorem Like.set_queue (h : Like c w w') (id : QueueId) (q : Queue Delivery) :
    Like c { w with queues := w.queues.set id q } { w' with queues := w'.queues.set id q } where
  canceled := h.canceled
  canceled' := h.canceled'
  tag := h.tag
  lifecycles := h.lifecycles
  queues id' := by
    rw [Store.get_set, Store.get_set, h.queues]
  transactions := h.transactions
  settled := h.settled
  nextFlag := h.nextFlag

/-- A section of the consumer's lifecycle changes neither. -/
theorem Like.set_lifecycle (h : Like c w w') (id : LifecycleId) (part : Lifecycle.Section)
    (hpart : id = c.lifecycle → part ≠ .look) :
    Like c { w with lifecycles := w.lifecycles.set id ((w.lifecycles.get id).run part).1 }
        { w' with lifecycles := w'.lifecycles.set id ((w'.lifecycles.get id).run part).1 } ∧
      ((w.lifecycles.get id).run part).2 = ((w'.lifecycles.get id).run part).2 := by
  by_cases hid : id = c.lifecycle
  · subst hid
    have hrun := Lifecycle.run_of_canceled h.canceled part
    have hrun' := Lifecycle.run_of_canceled h.canceled' part
    refine ⟨?_, run_answer_eq h.canceled h.canceled' h.tag (hpart rfl)⟩
    rw [hrun, hrun']
    refine ⟨?_, ?_, ?_, fun id hid => ?_, h.queues, h.transactions, h.settled, h.nextFlag⟩
    · rw [Canceled, Store.get_set_self]
      exact h.canceled
    · rw [Canceled, Store.get_set_self]
      exact h.canceled'
    · rw [Store.get_set_self, Store.get_set_self]
      exact h.tag
    · rw [Store.get_set_of_ne _ hid, Store.get_set_of_ne _ hid]
      exact h.lifecycles id hid
  · have hsame := h.lifecycles id hid
    rw [hsame]
    refine ⟨⟨?_, ?_, ?_, fun id' hid' => ?_, h.queues, h.transactions, h.settled, h.nextFlag⟩, rfl⟩
    · rw [Canceled, Store.get_set_of_ne _ (Ne.symm hid)]
      exact h.canceled
    · rw [Canceled, Store.get_set_of_ne _ (Ne.symm hid)]
      exact h.canceled'
    · rw [Store.get_set_of_ne _ (Ne.symm hid), Store.get_set_of_ne _ (Ne.symm hid)]
      exact h.tag
    · rw [Store.get_set, Store.get_set, h.lifecycles id' hid']

/-- A pass of a queue through its lock ends the same. -/
theorem served_alike {σ : Type} {Allowed : Request → Prop} {Rel : σ → σ → Prop}
    (store store' : Queue Delivery → σ) (h : ∀ q, Rel (store q) (store' q))
    (pass : Queue.Pass Delivery β) (condition : Condition) :
    (pass.served (I := interface) condition store).Alike Allowed Rel (pass.served condition store') := by
  unfold Queue.Pass.served
  cases pass.turn with
  | sleeps deadline => exact .sleeps _ _ (h _)
  | returns answer => exact .answers _ _ (h _)

/-- An enlistment looks at no lifecycle. -/
theorem Enlistment.unseeing (e : Enlistment) (notice : Notice) :
    (e.notify notice).Asks (Unseeing c) := by
  have hsettle : ∀ call, (e.settle call).Asks (Unseeing c) := by
    refine fun call => .ask trivial fun fresh => ?_
    cases fresh with
    | true => exact .ask trivial .done
    | false => exact .done _
  cases notice with
  | prepare => exact .done _
  | commit | rollback => exact hsettle _
  | inDoubt => exact .ask trivial fun _ => .done _

/-- Whatever runs for a request does not look. -/
theorem runs_unseeing (hR : Blind c R) (visit : Visit) (s s' : Scene R) (r : Request)
    (p : Action r.Answer) (h : Server.serve (I := interface) visit s r = .runs s' p) :
    p.Asks (Unseeing c) := by
  match r with
  | .under (.queue id call) =>
    simp only [Server.serve, World.serve, Queue.Pass.served] at h
    split at h <;> cases h
  | .under (.lifecycle _ _) | .under (.transaction _ _) | .under .newFlag | .under (.settle _)
  | .outside (.log _ _) => cases h
  | .outside (.channel id call) =>
    cases h
    exact hR.channel _ id call
  | .notify (.delivery e) notice =>
    cases h
    exact Enlistment.unseeing e notice
  | .notify (.other id) notice =>
    cases h
    exact hR.participant _ id notice

/-- A section that does not look is done alike. -/
theorem Like.serve {σ : Type} {Allowed : Request → Prop} {Rel : σ → σ → Prop} (h : Like c w w')
    {store store' : World → σ} (hstore : ∀ {v v'}, Like c v v' → Rel (store v) (store' v'))
    (visit : Visit) (lock : Client.Section) (hlock : Unseeing c (.under lock)) :
    (w.serve (I := interface) visit store lock).Alike Allowed Rel (w'.serve visit store' lock) := by
  cases lock with
  | queue id call =>
    simp only [World.serve, h.queues id]
    refine served_alike _ _ (fun q => hstore ?_) _ _
    exact h.set_queue id q
  | lifecycle id part =>
    obtain ⟨hlike, hanswer⟩ := h.set_lifecycle id part fun hid hlook => by
      subst hid hlook
      exact hlock rfl
    simp only [World.serve, hanswer]
    exact .answers _ _ (hstore hlike)
  | transaction id part =>
    simp only [World.serve, h.transactions]
    refine .answers _ _ (hstore ?_)
    exact { h with transactions := rfl }
  | newFlag =>
    simp only [World.serve, h.settled, h.nextFlag]
    refine .answers _ _ (hstore ?_)
    exact { h with settled := rfl, nextFlag := rfl }
  | settle id =>
    simp only [World.serve, h.settled]
    refine .answers _ _ (hstore ?_)
    exact { h with settled := rfl }

/-- **Who does not look is served alike.** -/
theorem serve_alike (hR : Blind c R) :
    ServeAlike interface (Unseeing c) (LikeScene c : Scene R → Scene R → Prop) := by
  rintro visit ⟨w, turn⟩ ⟨w', turn'⟩ r ⟨h, hturn⟩ hr
  obtain rfl : turn = turn' := hturn
  match r with
  | .under lock => exact h.serve (fun hlike => ⟨hlike, rfl⟩) visit lock hr
  | .outside (.channel id call) => exact .runs ⟨h, rfl⟩ (hR.channel turn id call)
  | .outside (.log level text) => exact .answers _ _ ⟨h, rfl⟩
  | .notify (.delivery e) notice => exact .runs ⟨h, rfl⟩ (Enlistment.unseeing e notice)
  | .notify (.other id) notice => exact .runs ⟨h, rfl⟩ (hR.participant turn id notice)

end Serving

/-! ## What is done with consumers later -/

section Uses

variable (c c' : Consumer)

theorem onCancel_unseeing : c'.onCancel.Asks (Unseeing c) := by
  obtain ⟨text, heq⟩ := exists_onCancel_eq c'
  rw [heq]
  refine .ask trivial fun found => ?_
  dsimp only [Program.done_bind]
  split
  · exact .done _
  · exact .ask trivial fun _ => .ask trivial fun _ => .ask trivial fun _ => .done _

theorem cancel_unseeing : c'.cancel.Asks (Unseeing c) := by
  refine .ask trivial fun tag? => ?_
  cases tag? with
  | none => exact (onCancel_unseeing c c').bind fun _ => .done _
  | some tag => exact .ask trivial fun _ => (onCancel_unseeing c c').bind fun _ => .done _

theorem callback_unseeing (callback : Callback) : (callback.action c').Asks (Unseeing c) := by
  cases callback with
  | consumeOk tag =>
    refine .ask trivial fun answer => ?_
    cases answer with
    | ok => exact .ask trivial fun _ => .done _
    | error => exact .done _
  | deliver d =>
    refine .ask trivial fun _ => .ask trivial fun answer => ?_
    cases answer with
    | ok => exact .done _
    | error => exact .ask trivial fun _ => .done _
  | cancelByBroker tag | cancelConfirmed tag =>
    exact .ask trivial fun _ => (onCancel_unseeing c c').bind fun _ => .done _
  | shutdown reason =>
    obtain ⟨level, text, heq⟩ := exists_shutdown_eq c' reason
    have hshutdown : (c'.shutdown reason).Asks (Unseeing c) := by
      rw [heq]
      refine .ask trivial fun counts => ?_
      cases counts with
      | false => exact .done _
      | true => exact .ask trivial fun _ => onCancel_unseeing c c'
    exact hshutdown.bind fun _ => .done _

theorem onDequeued_unseeing (d : Delivery) : (c'.onDequeued d).Asks (Unseeing c) := by
  unfold Consumer.onDequeued
  cases c'.mode with
  | auto => exact .ask trivial fun _ => .ask trivial fun _ => .done _
  | manual | transactional => exact .done _

theorem settleDequeued_unseeing (a : Result (Option Delivery)) :
    (Action.andThen (.done a) c'.settleDequeued).Asks (Unseeing c) := by
  match a with
  | .ok (some d) =>
    refine (onDequeued_unseeing c c' d).bind fun answer => ?_
    cases answer <;> exact .done _
  | .ok none | .error _ => exact .done _

theorem dequeue_unseeing : c'.dequeue.Asks (Unseeing c) := by
  refine .ask trivial fun a => ?_
  cases a with
  | ok d =>
    refine (onDequeued_unseeing c c' d).bind fun answer => ?_
    cases answer <;> exact .done _
  | error e => exact .done _

/-- **Nothing that is done with a consumer looks at a lifecycle.** -/
theorem use_unseeing (use : Use) : (use.action c').Asks (Unseeing c) := by
  cases use with
  | report callback => exact (callback_unseeing c c' callback).bind fun _ => .done _
  | dequeue pace =>
    cases pace with
    | waiting => exact (dequeue_unseeing c c').bind fun _ => .done _
    | within timeout =>
      have hdequeue : (c'.dequeueTimeout timeout).Asks (Unseeing c) :=
        .ask trivial fun a => settleDequeued_unseeing c c' a
      exact hdequeue.bind fun _ => .done _
    | atOnce =>
      have hdequeue : c'.dequeueNoWait.Asks (Unseeing c) :=
        .ask trivial fun a => settleDequeued_unseeing c c' a
      exact hdequeue.bind fun _ => .done _
  | next it =>
    have hnext : (c'.nextDelivery it).Asks (Unseeing c) := by
      unfold Consumer.nextDelivery
      split
      · exact .done _
      · exact (dequeue_unseeing c c').bind fun _ => .done _
    exact hnext.bind fun _ => .done _
  | waitForMessage timeout =>
    have hwait : (c'.waitForMessage timeout).Asks (Unseeing c) := .ask trivial .done
    exact hwait.bind fun _ => .done _
  | cancel => exact (cancel_unseeing c c').bind fun _ => .done _

/-- Nor does a thread that does one thing after another. -/
theorem reader_unseeing (reader : Reader) : reader.action.Asks (Unseeing c) := by
  unfold Reader.action
  induction reader.uses with
  | nil => exact .done _
  | cons use rest ih => exact (use_unseeing c _ use).bind fun _ => ih.bind fun _ => .done _

end Uses

/-! ## Subscriptions that have not ended -/

/-- The objects of a client, among channels and participants that have had no
turn yet. -/
def among (R : Reactions) (m : Machine interface World α) : Machine interface (Scene R) α :=
  ⟨⟨m.shared, 0⟩, m.clock, m.tickets, m.threads⟩

/-- The objects alone. -/
def aside (m : Machine interface (Scene R) α) : Machine interface World α :=
  ⟨m.shared.world, m.clock, m.tickets, m.threads⟩

/-- **A consumer that is not canceled**, among threads that do not look at its
lifecycle. They may be anywhere in what they do, and those that do something
later are among them. -/
structure Subscribed (c : Consumer) (α : Type) where
  machine : Machine interface World α
  active : ¬ Canceled c machine.shared
  blind : ∀ p ∈ machine.programs, p.Asks (Unseeing c)

/-- Threads that are about to use consumers, among objects that are as they may
be. -/
def Subscribed.start {w : World} (h : ¬ Canceled c w) (readers : List Reader) :
    Subscribed c (List Reply) where
  machine := .start w (readers.map Reader.action)
  active := h
  blind p hp := by
    rw [Machine.programs_start] at hp
    obtain ⟨reader, -, rfl⟩ := List.mem_map.mp hp
    exact reader_unseeing c reader

/-- **Whatever is reached from a subscription** is one, unless the consumer is
canceled. -/
def Subscribed.reached (m : Subscribed c α) (hR : Blind c R)
    (schedule : List (Machine.Move interface α))
    (h : ¬ Canceled c ((among R m.machine).run schedule).machine.shared.world) :
    Subscribed c α where
  machine := aside ((among R m.machine).run schedule).machine
  active := h
  blind :=
    have hsame : (among R m.machine).Alike (Unseeing c) Eq (among R m.machine) :=
      ⟨rfl, rfl, rfl, rfl, m.blind⟩
    (hsame.run (.of_runs fun visit s s' r p _ => runs_unseeing hR visit s s' r p) schedule).machine.asks

/-! ## The end, and what comes after it -/

/-- A thread joins, ends the consumer, and ends with `last`; no other moves
meanwhile. -/
def ending (m : Subscribed c α) (last : α) (way : Way) (x : Reaction)
    (waker : Machine.Waker interface α) (n : Nat) : History interface (Scene (x.reactions c)) α :=
  (among (x.reactions c) (m.machine.spawn ((way.action c).bind fun _ => .done last))).run
    (List.replicate n (.advance waker m.machine.threads.length))

/-- **What a way to end the consumer leaves** once it has returned, with the
calls on channels that it has made. -/
def Leaves (m : Subscribed c α) (last : α) (way : Way) (x : Reaction)
    (m' : Machine interface World α) (made : List (ChannelId × Channel.Call)) : Prop :=
  ∃ waker n, (ending m last way x waker n).machine.result? m.machine.threads.length = some last ∧
    aside (ending m last way x waker n).machine = m' ∧
    (ending m last way x waker n).trace.filterMap (fun e => called? e.request) = made

section Leaves

variable {m : Subscribed c α} {last : α} {way : Way} {x : Reaction}

/-- A way to end the consumer, by itself. -/
theorem exists_alone (m : Subscribed c α) (last : α) (way : Way) (x : Reaction) :
    ∃ asked, ∃ s' : Scene (x.reactions c),
      ((way.action c).bind fun _ => .done last).Alone m.machine.clock
        (⟨m.machine.shared, 0⟩ : Scene (x.reactions c)) (wakes c m.machine.shared) asked s' last ∧
      Ended c m.machine.shared s'.world ∧
      asked.filterMap called? = calls c m.machine.shared way := by
  obtain ⟨woken, asked, s', a, halone, htoward, hasked, hcanceled⟩ :=
    end_approaches m.machine.clock x ⟨m.machine.shared, 0⟩ way
  obtain ⟨hwoken, hended⟩ := htoward.ended_of_canceled hcanceled
  have hwhole := halone.bind (f := fun _ => .done last) (.done last s')
  rw [List.append_nil, List.append_nil, hwoken] at hwhole
  exact ⟨asked, s', hwhole, hended, hasked⟩

theorem joined (m : Subscribed c α) (R : Reactions) (p : Action α) :
    (among R (m.machine.spawn p)).threads[m.machine.threads.length]? = some (.running p) :=
  List.getElem?_concat_length

/-- **A way to end the consumer returns**, whatever the channel does. -/
theorem exists_leaves (m : Subscribed c α) (last : α) (way : Way) (x : Reaction) :
    ∃ m' made, Leaves m last way x m' made := by
  obtain ⟨asked, s', halone, -, -⟩ := exists_alone m last way x
  obtain ⟨n, hmachine, -⟩ := halone.ends .longest rfl rfl (joined m (x.reactions c) _)
  refine ⟨_, _, .longest, n, ?_, rfl, rfl⟩
  rw [ending, hmachine]
  exact Machine.result?_afterAlone (List.getElem?_eq_some_iff.mp (joined m _ _)).1 _ _ _

/-- What is left of the machine: the calling thread has ended, and whoever slept
on the queue is woken. -/
theorem Leaves.eq {m' : Machine interface World α} {made : List (ChannelId × Channel.Call)}
    (h : Leaves m last way x m' made) :
    Ended c m.machine.shared m'.shared ∧ made = calls c m.machine.shared way ∧
      m'.clock = m.machine.clock ∧ m'.tickets = m.machine.tickets ∧
      m'.threads = Machine.awaken (wakes c m.machine.shared)
        (m.machine.threads ++ [.running (.done last)]) := by
  obtain ⟨waker, n, hresult, rfl, rfl⟩ := h
  obtain ⟨asked, s', halone, hended, hasked⟩ := exists_alone m last way x
  obtain ⟨hmachine, htrace⟩ := halone.run_eq (joined m (x.reactions c) _)
    (Option.isSome_of_eq_some hresult)
  rw [ending, hmachine]
  refine ⟨hended, ?_, rfl, rfl, ?_⟩
  · rw [← hasked, ← htrace, List.filterMap_map]
    rfl
  · simp [aside, Machine.afterAlone, among, Machine.spawn, ← Machine.awaken_set]

/-- Whatever was asked of the consumer, it ends alike. -/
theorem Like.of_ended {w w₁ w₂ : World} (h₁ : Ended c w w₁) (h₂ : Ended c w w₂) : Like c w₁ w₂ where
  canceled := h₁.canceled
  canceled' := h₂.canceled
  tag := h₁.tag.trans h₂.tag.symm
  lifecycles id hid := (h₁.lifecycles id hid).trans (h₂.lifecycles id hid).symm
  queues id := by
    by_cases hid : id = c.queue
    · rw [hid, h₁.queue, h₂.queue]
    · rw [h₁.queues id hid, h₂.queues id hid]
  transactions := h₁.transactions.trans h₂.transactions.symm
  settled := h₁.settled.trans h₂.settled.symm
  nextFlag := h₁.nextFlag.trans h₂.nextFlag.symm

/-- **Whatever two ways leave cannot be told apart.** -/
theorem Leaves.alike {way' : Way} {x' : Reaction} {m₁ m₂ : Machine interface World α}
    {made₁ made₂ : List (ChannelId × Channel.Call)} (h₁ : Leaves m last way x m₁ made₁)
    (h₂ : Leaves m last way' x' m₂ made₂) (R : Reactions) :
    (among R m₁).Alike (Unseeing c) (LikeScene c) (among R m₂) := by
  obtain ⟨hended₁, -, hclock₁, htickets₁, hthreads₁⟩ := h₁.eq
  obtain ⟨hended₂, -, hclock₂, htickets₂, hthreads₂⟩ := h₂.eq
  refine ⟨⟨.of_ended hended₁ hended₂, rfl⟩, hclock₁.trans hclock₂.symm,
    htickets₁.trans htickets₂.symm, hthreads₁.trans hthreads₂.symm, fun p hp => ?_⟩
  have hprograms : (among R m₁).programs = m.machine.programs ++ [.done last] := by
    rw [Machine.programs, among]
    dsimp only
    rw [hthreads₁, Machine.program_awaken, List.map_append]
    rfl
  rw [hprograms] at hp
  rcases List.mem_append.mp hp with hp | hp
  · exact m.blind p hp
  · rw [List.mem_singleton.mp hp]
    exact .done last

end Leaves

/-- **What it means that a consumer ends in the same way however it is ended.** -/
structure EndsAlike (m : Subscribed c α) (last : α) : Prop where
  /-- Every way to end it returns, however the channel reacts. -/
  returns (way : Way) (x : Reaction) : ∃ m' made, Leaves m last way x m' made
  /-- It leaves the consumer canceled under its tag and its queue closed, with
  the deliveries that it had; apart from that the objects are as before. -/
  leaves {way : Way} {x : Reaction} {m' : Machine interface World α}
    {made : List (ChannelId × Channel.Call)} : Leaves m last way x m' made →
    m'.shared.queues.get c.queue = ⟨(m.machine.shared.queues.get c.queue).items, false⟩ ∧
    (m'.shared.lifecycles.get c.lifecycle).state = .canceled ∧
    Apart c m.machine.shared m'.shared
  /-- The only call on a channel is the one that asks the broker to cancel, if
  the application ends a consumer that the broker was not asked to cancel
  before. -/
  calls {way : Way} {x : Reaction} {m' : Machine interface World α}
    {made : List (ChannelId × Channel.Call)} : Leaves m last way x m' made →
    made = Ways.calls c m.machine.shared way
  /-- Whatever is done later is done the same after either: the same requests
  with the same answers, in the same order, and the same results. -/
  alike {way way' : Way} {x x' : Reaction} {m₁ m₂ : Machine interface World α}
    {made₁ made₂ : List (ChannelId × Channel.Call)} : Leaves m last way x m₁ made₁ →
    Leaves m last way' x' m₂ made₂ → ∀ R, Blind c R → ∀ schedule,
    ((among R m₁).run schedule).Alike (Unseeing c) (LikeScene c) ((among R m₂).run schedule)
  /-- Whoever uses a consumer does not look at its lifecycle, so the threads may
  be using any. -/
  unseeing (c' : Consumer) (use : Use) : (use.action c').Asks (Unseeing c)

/-- **Readers cannot tell how a consumer was ended.** -/
theorem ends_alike (m : Subscribed c α) (last : α) : EndsAlike m last where
  returns := exists_leaves m last
  leaves h := ⟨h.eq.1.queue.trans (if_neg m.active), h.eq.1.canceled, h.eq.1.toApart⟩
  calls h := h.eq.2.1
  alike h₁ h₂ R hR schedule := (h₁.alike h₂ R).run (serve_alike hR) schedule
  unseeing := use_unseeing c

end MessageIntake.Uniform
