import MessageIntake.Consumer.Subscriber
import MessageIntake.Proofs.Client.Setting
import MessageIntake.Proofs.Consumer.Standing

/-!
# How a subscription ends

A subscriber reports the end of its subscription from two looks under two
locks: at the queue, which is closed and without items, and then at the
lifecycle, which says whether the transport was lost. In between, any
number of callbacks, cancellations and other receive calls may pass. What
it reports is still what the lifecycle said when the queue was found so
(`receive_follows`).

The reason is an order: the consumer is canceled before its queue is
closed, and a lifecycle that is canceled is never changed again
(`Lifecycle.run_of_canceled`). `Insight` is the note of a thread that has
seen as much, and what it says stays true whatever is served
(`Insight.Holds.serve`). `ending` is the discipline of closing the queue
with this insight only, and `Attends` are the programs that follow it.
-/

namespace MessageIntake

open Client

namespace Lifecycle

/-- Whether a consumer ends with a fault: it has lost its transport, and not
with the code of success. -/
def faulted (l : Lifecycle) : Bool :=
  match l.shutdownReason with
  | some reason => !reason.isClean
  | none => false

theorem faulted_iff {l : Lifecycle} :
    l.faulted ↔ ∃ reason, l.shutdownReason = some reason ∧ reason.code ≠ ShutdownReason.success := by
  unfold faulted
  cases l.shutdownReason <;> simp [ShutdownReason.isClean]

/-- **A lifecycle that is canceled is never changed.** -/
theorem run_of_canceled {l : Lifecycle} (h : l.state = .canceled) (part : Section) :
    (l.run part).1 = l := by
  obtain ⟨state, tag, reason, requested⟩ := l
  obtain rfl : state = .canceled := h
  cases part <;> rfl

/-- The reason of a lifecycle is that of the last loss that counts. -/
theorem shutdownReason_run (l : Lifecycle) (part : Section) (i : Nat) :
    (l.run part).1.shutdownReason =
      (Step.lost? ⟨i, part, (l.run part).2⟩).or l.shutdownReason := by
  cases part with
  | start tag | requestCancel =>
    simp only [run]
    split <;> rfl
  | loseTransport reason =>
    by_cases hstate : l.state.isTerminal <;> simp [run, hstate, Step.lost?]
  | cancel | look => rfl

/-- No loss counts once the consumer is canceled. -/
theorem lost?_of_canceled {l : Lifecycle} (h : l.state = .canceled) (part : Section) (i : Nat) :
    Step.lost? ⟨i, part, (l.run part).2⟩ = none := by
  cases part with
  | loseTransport reason => simp [run, h, ConsumerState.isTerminal, Step.lost?]
  | start | requestCancel | cancel | look => rfl

end Lifecycle

/-- Requests that neither end a consumer nor close its queue. -/
def Client.Request.Defers (c : Consumer) : Request → Prop
  | .under (.lifecycle id .cancel) => id ≠ c.lifecycle
  | .under (.queue id .close) => id ≠ c.queue
  | .under _ | .outside _ | .notify _ _ => True

namespace Ending

open Lifespan

variable {R : Reactions} {c : Consumer} {α β : Type}

/-! ## What a thread knows -/

/-- What a thread has seen of the end of a subscription. -/
structure Insight where
  /-- The consumer is canceled. -/
  canceled : Bool := false
  /-- The queue is closed and without items as well, and this is the
  lifecycle. -/
  final : Option Lifecycle := none

/-- It is as the thread has seen it. -/
structure Insight.Holds (g : Insight) (l : Lifecycle) (q : Queue Delivery) : Prop where
  canceled : g.canceled → l.state = .canceled
  final : ∀ l', g.final = some l' → l' = l ∧ l.state = .canceled ∧ q = ⟨[], false⟩

/-- A lifecycle that is canceled stays as it is, whatever is served. -/
theorem lifecycle_serve_of_canceled {id : LifecycleId} (visit : Visit) (s : Scene R) (r : Request)
    (h : (s.lifecycle id).state = .canceled) :
    (Server.serve (I := interface) visit s r).state.lifecycle id = s.lifecycle id := by
  by_cases hr : ∃ part, r = .under (.lifecycle id part)
  · obtain ⟨part, rfl⟩ := hr
    rw [lifecycle_serve, Lifecycle.run_of_canceled h]
  · exact lifecycle_eq_of_ne (fun part hpart => hr ⟨part, hpart⟩) visit s

/-- So does a queue at the end of its stream. -/
theorem queue_serve_of_drained {id : QueueId} (visit : Visit) (s : Scene R) (r : Request)
    (h : s.queue id = ⟨[], false⟩) :
    (Server.serve (I := interface) visit s r).state.queue id = ⟨[], false⟩ := by
  rcases queue_serve_cases visit s r id with hsame | ⟨call, -, hpass⟩
  · rw [hsame, h]
  · rw [hpass, h]
    cases call with
    | enqueue | dequeue | tryDequeue | dequeueNoWait | dequeueTimeout | waitForMessage | close
    | look => rfl

/-- **What a thread has seen stays so.** -/
theorem Insight.Holds.serve {g : Insight} {s : Scene R}
    (h : g.Holds (s.lifecycle c.lifecycle) (s.queue c.queue)) (visit : Visit) (r : Request) :
    g.Holds ((Server.serve (I := interface) visit s r).state.lifecycle c.lifecycle)
      ((Server.serve (I := interface) visit s r).state.queue c.queue) where
  canceled hcanceled := by
    rw [lifecycle_serve_of_canceled visit s r (h.canceled hcanceled)]
    exact h.canceled hcanceled
  final l' hfinal := by
    obtain ⟨rfl, hcanceled, hdrained⟩ := h.final l' hfinal
    rw [lifecycle_serve_of_canceled visit s r hcanceled]
    exact ⟨rfl, hcanceled, queue_serve_of_drained visit s r hdrained⟩

/-! ## Who closes the queue -/

/-- **The discipline of a subscription**: its queue is closed by those who
know that the consumer is canceled. Channels do not answer with the error
of a closed queue, and transactions have no such answer. -/
def ending (c : Consumer) : Discipline Client.interface Insight where
  Permits
    | g, .under (.queue id .close) => id = c.queue → g.canceled
    | _, _ => True
  Leads
    | g, .under (.lifecycle id .cancel), _, g' =>
      g' = if id = c.lifecycle then { g with canceled := true } else g
    | g, .under (.lifecycle id .look), l, g' =>
      g' = g ∧ (id = c.lifecycle → ∀ l', g.final = some l' → l = l')
    | _, .under (.queue id (.dequeueTimeout _)), .error _, g' => id = c.queue → g'.final.isSome
    | g, .under (.transaction _ part), a, g' => g' = g ∧ ∃ t : Transaction, a = (t.run part).2
    | _, .outside (.channel _ _), a, _ => a ≠ .error .queueClosed
    | _, .notify _ _, _, _ => True
    | g, _, _, g' => g' = g

/-- **A program that closes the queue of a consumer by ending the consumer
only**, and whose result is as `Ends` says. -/
inductive Attends (c : Consumer) {α : Type} (Ends : α → Prop) : Action α → Prop
  | done {a : α} : Ends a → Attends c Ends (.done a)
  | ask {r : Request} {next : r.Answer → Action α} :
    r.Defers c → (∀ a, Attends c Ends (next a)) → Attends c Ends (.ask r next)
  | onCancel {next : Unit → Action α} :
    Attends c Ends (next ()) → Attends c Ends (c.onCancel.bind next)

/-- A program that has nothing to say. -/
abbrev Silent (c : Consumer) (p : Action α) : Prop := Attends c (fun _ => True) p

/-- Ending the consumer, which makes sure that the consumer is canceled before
its queue is closed. -/
theorem onCancel_follows (g : Insight) :
    c.onCancel.Follows (ending c) (fun _ _ => True) g := by
  refine ⟨trivial, fun a g' hlead => ?_⟩
  obtain ⟨state, tag⟩ := a
  simp only [ending, if_true] at hlead
  subst hlead
  dsimp only [Program.done_bind]
  by_cases hstate : state = .canceled
  · simp only [hstate, if_true]
    trivial
  · simp only [hstate, if_false]
    -- the close is permitted, because the section before it has canceled the consumer
    exact ⟨fun _ => rfl, fun _ _ _ => ⟨trivial, fun _ _ _ => ⟨trivial, fun _ _ _ => trivial⟩⟩⟩

theorem Attends.follows {Ends : α → Prop} {p : Action α} (hp : Attends c Ends p) (g : Insight) :
    p.Follows (ending c) (fun a _ => Ends a) g := by
  induction hp generalizing g with
  | done ha => exact ha
  | @ask r next hr _ ih =>
    -- no answer matters, so the notes it may leave need not be told apart
    refine ⟨?_, fun a g' _ => ih a g'⟩
    match r with
    | .under (.queue id .close) => exact fun hid => absurd hid hr
    | .under (.queue _ (.enqueue _)) | .under (.queue _ .dequeue) | .under (.queue _ .tryDequeue)
    | .under (.queue _ (.dequeueNoWait _)) | .under (.queue _ (.dequeueTimeout _))
    | .under (.queue _ (.waitForMessage _)) | .under (.queue _ .look) | .under (.lifecycle _ _)
    | .under (.transaction _ _) | .under .newFlag | .under (.settle _) | .outside _
    | .notify _ _ => trivial
  | onCancel _ ih => exact (onCancel_follows g).bind fun _ g' _ => ih g'

/-! ## What is done with a consumer -/

/-- An enlistment leaves queues alone. -/
theorem Enlistment.silent (e : Enlistment) (notice : Notice) : Silent c (e.notify notice) := by
  have hsettle : ∀ call, Silent c (e.settle call) := by
    refine fun call => .ask trivial fun fresh => ?_
    cases fresh with
    | true => exact .ask trivial fun _ => .done trivial
    | false => exact .done trivial
  cases notice with
  | prepare => exact .done trivial
  | commit | rollback => exact hsettle _
  | inDoubt => exact .ask trivial fun _ => .done trivial

theorem cancel_silent : Silent c c.cancel := by
  refine .ask trivial fun tag? => ?_
  cases tag? with
  | some tag => exact .ask trivial fun answer => .onCancel (.done trivial)
  | none => exact .onCancel (.done trivial)

/-- **Every callback leaves the queue open unless it ends the consumer.** -/
theorem callback_silent (callback : Callback) : Silent c (callback.action c) := by
  cases callback with
  | consumeOk tag =>
    refine .ask trivial fun r => ?_
    cases r with
    | ok => exact .ask trivial fun _ => .done trivial
    | error e => exact .done trivial
  | deliver d =>
    refine .ask trivial fun _ => .ask trivial fun r => ?_
    cases r with
    | ok => exact .done trivial
    | error e => exact .ask trivial fun _ => .done trivial
  | cancelByBroker tag | cancelConfirmed tag =>
    exact .ask trivial fun _ => .onCancel (.done trivial)
  | shutdown reason =>
    refine .ask trivial fun counts => ?_
    cases counts with
    | false => exact .done trivial
    | true =>
      by_cases hclean : reason.isClean <;> simp only [hclean] <;>
        exact .ask trivial fun _ => .onCancel (.done trivial)

/-! ## Receiving -/

/-- Who is refused by a closed queue has seen that it is closed. -/
def Sees (r : Result α) (g : Insight) : Prop := r = .error .queueClosed → g.final.isSome

theorem sees_ok {a : α} {g : Insight} : Sees (.ok a : Result α) g := nofun

theorem andThen_sees {action : Action (Result α)} {next : α → Action (Result β)} {g : Insight}
    (h : action.Follows (ending c) Sees g)
    (hnext : ∀ a g', (next a).Follows (ending c) Sees g') :
    (action.andThen next).Follows (ending c) Sees g := by
  refine Action.follows_andThen h (fun a g' _ => hnext a g') fun e g' hsees hclosed => hsees ?_
  cases hclosed
  rfl

/-- What the mode does to the delivery that was taken. -/
theorem onDequeued_sees (d : Delivery) (g : Insight) :
    (c.onDequeued d).Follows (ending c) Sees g := by
  unfold Consumer.onDequeued
  cases c.mode with
  | auto => exact ⟨trivial, fun _ _ _ => ⟨trivial, fun _ _ hlead h => absurd h hlead⟩⟩
  | manual | transactional => exact sees_ok

theorem settleDequeued_sees (d? : Option Delivery) (g : Insight) :
    (c.settleDequeued d?).Follows (ending c) Sees g := by
  cases d? with
  | none => exact sees_ok
  | some d => exact andThen_sees (onDequeued_sees d g) fun _ _ => sees_ok

theorem dequeueTimeout_sees (timeout : Timeout) (g : Insight) :
    (c.dequeueTimeout timeout).Follows (ending c) Sees g := by
  have hqueue : (Client.queue c.queue (.dequeueTimeout timeout)).Follows (ending c) Sees g := by
    refine ⟨trivial, fun r g' hlead => ?_⟩
    cases r with
    | ok => exact sees_ok
    | error e => exact fun _ => hlead rfl
  exact andThen_sees hqueue settleDequeued_sees

/-- The error of a transaction is one of its own. -/
theorem transaction_sees {t : TransactionId} {part : Transaction.Section}
    {next : part.Answer → Action (Result α)} {g : Insight}
    (hnext : ∀ x : Transaction, (next (x.run part).2).Follows (ending c) Sees g) :
    ((Client.transaction t part).bind next).Follows (ending c) Sees g := by
  refine ⟨trivial, fun a g' hlead => ?_⟩
  obtain ⟨rfl, x, rfl⟩ := hlead
  exact hnext x

theorem enlist_sees (tc : TransactionalConsumer) (t : TransactionId) (d : Delivery) (g : Insight) :
    (tc.enlist t d).Follows (ending tc.inner) Sees g := by
  refine ⟨trivial, fun flag g' hlead => ?_⟩
  refine transaction_sees fun x => ?_
  by_cases hactive : x.status = .active
  · simp only [Transaction.run, hactive, if_true]
    exact ⟨trivial, fun _ _ _ => sees_ok⟩
  · simp only [Transaction.run, hactive, if_false]
    refine ⟨trivial, fun _ g' _ => ?_⟩
    exact andThen_sees ⟨trivial, fun _ _ hlead h => absurd h hlead⟩ fun _ _ => nofun

theorem enlistDequeued_sees (tc : TransactionalConsumer) (t : TransactionId) (d? : Option Delivery)
    (g : Insight) : (tc.enlistDequeued t d?).Follows (ending tc.inner) Sees g := by
  cases d? with
  | none => exact sees_ok
  | some d => exact andThen_sees (enlist_sees tc t d g) fun _ _ => sees_ok

theorem ofMode_sees (s : Subscriber) (t? : Option TransactionId) (g : Insight) :
    (s.dequeue t?).Follows (ending s.consumer) Sees g := by
  refine Subscriber.forward_of (P := (Program.Follows (ending s.consumer) Sees · g))
    (fun _ => dequeueTimeout_sees s.receiveTimeout g) fun hmode => ?_
  cases t? with
  | none => exact nofun
  | some t =>
    refine transaction_sees fun x => ?_
    by_cases hactive : x.status = .active
    · simp only [Transaction.run, Transaction.ensureActive, hactive, if_true]
      exact andThen_sees (dequeueTimeout_sees s.receiveTimeout g)
        (enlistDequeued_sees ⟨s.consumer, hmode⟩ t)
    · simp only [Transaction.run, Transaction.ensureActive, hactive, if_false]
      exact nofun

/-- Who reports the end has seen a lifecycle that will not change, and reports
what it says. -/
def Reports (r : Result Received) (g : Insight) : Prop :=
  ∀ faulted, r = .ok (.closed faulted) → ∃ l, g.final = some l ∧ faulted = l.faulted

/-- Whoever knows the lifecycle for good finds it so when it looks. -/
theorem look_follows {g : Insight} {l : Lifecycle} (hg : g.final = some l) :
    (Client.lifecycle c.lifecycle .look).Follows (ending c)
      (fun l' g' => l' = l ∧ g'.final = some l) g := by
  refine ⟨trivial, fun l' g' hlead => ?_⟩
  obtain ⟨rfl, hsame⟩ := hlead
  exact ⟨hsame rfl l hg, hg⟩

/-- The report is that of the lifecycle that was seen, however often it is
looked at. -/
theorem endedByFault_follows (s : Subscriber) {g : Insight} {l : Lifecycle}
    (hg : g.final = some l) :
    s.endedByFault.Follows (ending s.consumer)
      (fun faulted g' => faulted = l.faulted ∧ g'.final = some l) g := by
  have hlog : ∀ {faulted g'}, faulted = l.faulted → g'.final = some l → ∀ level text,
      ((log level text).bind fun _ => .done faulted).Follows (ending s.consumer)
        (fun faulted' g'' => faulted' = l.faulted ∧ g''.final = some l) g' :=
    fun hfaulted hg' _ _ => ⟨trivial, fun _ _ hlead => ⟨hfaulted, hlead ▸ hg'⟩⟩
  have hquiet : ∀ {g'}, l.faulted = false → g'.final = some l →
      (Subscriber.endedByFault.withoutFault s).Follows (ending s.consumer)
        (fun faulted g'' => faulted = l.faulted ∧ g''.final = some l) g' := by
    intro g' hfault hg'
    rw [Subscriber.endedByFault.withoutFault, Subscriber.consumerTag_eq, Consumer.consumerTag]
    refine ((look_follows hg').bind fun l' g'' hlook => ?_).bind fun tag g'' hg'' =>
      hlog hfault.symm hg'' _ _
    exact hlook.2
  rw [Subscriber.endedByFault, Subscriber.shutdownReason_eq]
  have hreason : s.consumer.shutdownReason.Follows (ending s.consumer)
      (fun reason? g' => reason? = l.shutdownReason ∧ g'.final = some l) g :=
    (look_follows hg).bind fun l' g' ⟨hl', hg'⟩ => ⟨by rw [hl'], hg'⟩
  refine hreason.bind fun reason? g' ⟨hreason?, hg'⟩ => ?_
  cases reason? with
  | none => exact hquiet (by rw [Lifecycle.faulted, ← hreason?]) hg'
  | some reason =>
    dsimp only
    split
    · rename_i hclean
      exact hquiet (by simp [Lifecycle.faulted, ← hreason?, hclean]) hg'
    · rename_i hclean
      exact hlog (by simp [Lifecycle.faulted, ← hreason?, hclean]) hg' _ _

/-- **A receive call reports the end as it has seen it.** -/
theorem receive_follows (s : Subscriber) (t? : Option TransactionId) (g : Insight) :
    (s.receive t?).Follows (ending s.consumer) Reports g := by
  refine (ofMode_sees s t? g).bind fun r g' hsees => ?_
  match r with
  | .ok (some d) => exact nofun
  | .ok none => exact nofun
  | .error .queueClosed =>
    obtain ⟨l, hl⟩ := Option.isSome_iff_exists.mp (hsees rfl)
    have hclosed : s.closed.Follows (ending s.consumer)
        (fun r g'' => r = .closed l.faulted ∧ g''.final = some l) g' :=
      (endedByFault_follows s hl).bind fun faulted g'' ⟨hfaulted, hl'⟩ => ⟨by rw [hfaulted], hl'⟩
    refine hclosed.bind fun r g'' ⟨hr, hl'⟩ => ?_
    rintro faulted ⟨⟩
    cases hr
    exact ⟨l, hl', rfl⟩
  | .error (.channel _) | .error (.transaction _) | .error (.consumerInvalidState ..)
  | .error (.configParseFailed ..) | .error (.configInvalidValue ..) => exact nofun

end Ending

end MessageIntake
