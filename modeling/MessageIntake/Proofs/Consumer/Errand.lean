import MessageIntake.Consumer.Subscriber
import MessageIntake.Proofs.Consumer.Books

/-!
# Errands at consumers that share queues

A thread runs one errand: it brings a delivery to a consumer, takes one
through a consumer, in whatever mode and by whatever call, or stands by,
which may mean to complete transactions. `Stock` is the note of a
thread: its errand, and the deliveries that it knows to be taken, by the
keys that they are settled under. `stocking` is the discipline of them
all: deliveries are put into and taken off the queue of the errand's
consumer only, and what is enlisted, told or settled is in stock.

A delivery comes into stock under the channel of the consumer that it is
taken through. No other channel enters into the programs, which is where
the settlements of a shared queue go.
-/

namespace MessageIntake

open Client Transaction

/-- How long a dequeue waits. -/
inductive Pace where
  | waiting
  | within (timeout : Timeout)
  | atOnce
  deriving DecidableEq, Repr

/-- A call that takes a delivery. -/
inductive Dequeue where
  | plain (c : Consumer) (pace : Pace)
  | under (c : TransactionalConsumer) (pace : Pace) (t : TransactionId)
  /-- The next step of an iteration. -/
  | next (c : Consumer) (it : Queue.Iterator)
  | receive (s : Subscriber) (t? : Option TransactionId)

namespace Dequeue

/-- The consumer that the delivery is taken through. -/
def consumer : Dequeue → Consumer
  | plain c _ | next c _ => c
  | under c _ _ => c.inner
  | receive s _ => s.consumer

/-- The program of a call. -/
def action : Dequeue → Action Unit
  | plain c .waiting => do let _ ← c.dequeue
  | plain c (.within timeout) => do let _ ← c.dequeueTimeout timeout
  | plain c .atOnce => do let _ ← c.dequeueNoWait
  | under c .waiting t => do let _ ← c.dequeue t
  | under c (.within timeout) t => do let _ ← c.dequeueTimeout timeout t
  | under c .atOnce t => do let _ ← c.dequeueNoWait t
  | next c it => do let _ ← c.nextDelivery it
  | receive s t? => do let _ ← s.receive t?

end Dequeue

/-- Requests that neither bring, take, enlist nor settle a delivery and
tell no participant. -/
def Client.Request.Apart : Request → Prop
  | .under (.queue _ call) => call.takes = false ∧ ∀ d, call ≠ .enqueue d
  | .under (.transaction _ part) => ∀ e, part ≠ .enlist (.delivery e)
  | .under _ | .outside (.log _ _) => True
  | .outside (.channel _ call) => call.settles = false
  | .notify _ _ => False

/-- **A program that leaves deliveries to others**: it completes and
discards transactions, and keeps apart from deliveries otherwise. -/
inductive Aloof {α : Type} : Action α → Prop
  | done (a : α) : Aloof (.done a)
  | ask {r : Request} {next : r.Answer → Action α} :
    r.Apart → (∀ a, Aloof (next a)) → Aloof (.ask r next)
  | complete (how : Completion) (t : TransactionId) {next : Result Unit → Action α} :
    (∀ a, Aloof (next a)) → Aloof ((how.action t).bind next)
  | discard (t : TransactionId) {next : Unit → Action α} :
    (∀ a, Aloof (next a)) → Aloof ((Transaction.discard t).bind next)

/-- What a thread is there for. -/
inductive Errand where
  /-- The broker pushes a delivery to a consumer. -/
  | deliver (c : Consumer) (d : Delivery)
  | take (how : Dequeue)
  | stand (program : Action Unit) (aloof : Aloof program)

namespace Errand

/-- The program of an errand. -/
def action : Errand → Action Unit
  | deliver c d => do let _ ← c.deliver d
  | take how => how.action
  | stand program _ => program

/-- The consumer that an errand is for. -/
def consumer? : Errand → Option Consumer
  | deliver c _ => some c
  | take how => some how.consumer
  | stand _ _ => none

/-- The channel of the consumer that a delivery is taken through. -/
def channel? : Errand → Option ChannelId
  | take how => some how.consumer.channel
  | deliver _ _ | stand _ _ => none

end Errand

/-! ## What a thread has in stock -/

/-- An errand, and the keys of deliveries that were taken. -/
structure Stock where
  errand : Errand
  keys : List DeliveryKey

/-- The keys of the enlistments among participants. -/
def enlistedKeys (all : List Participant) : List DeliveryKey :=
  (all.filterMap Participant.enlistment?).map Enlistment.key

theorem key_mem_enlistedKeys {all : List Participant} {e : Enlistment} (h : .delivery e ∈ all) :
    e.key ∈ enlistedKeys all :=
  List.mem_map_of_mem (List.mem_filterMap.mpr ⟨_, h, rfl⟩)

theorem enlistedKeys_append (all more : List Participant) :
    enlistedKeys (all ++ more) = enlistedKeys all ++ enlistedKeys more := by
  simp [enlistedKeys]

namespace Stock

/-- What may be asked with a stock. -/
def Allows (g : Stock) : Request → Prop
  | .under (.queue id (.enqueue d)) => ∃ c, g.errand = .deliver c d ∧ c.queue = id
  | .under (.queue id call) =>
    call.takes → ∃ how, g.errand = .take how ∧ how.consumer.queue = id
  | .under (.transaction _ (.enlist (.delivery e))) | .notify (.delivery e) _ => e.key ∈ g.keys
  | .outside (.channel id call) => call.settles → (id, call.tag) ∈ g.keys
  | .under _ | .outside _ | .notify _ _ => True

/-- What an answer brings into stock: the delivery that is taken, or the
enlistments of a transaction. -/
def news (g : Stock) : (r : Request) → r.Answer → List DeliveryKey
  | .under (.queue _ call), a =>
    (g.errand.channel?.bind fun channel =>
      (Hand.given call a).map fun d => (channel, d.tag)).toList
  | .under (.transaction _ .begin), .ok all | .under (.transaction _ .abandon), all =>
    enlistedKeys all
  | _, _ => []

/-- The stock after an answer, if there is one. -/
def after (g : Stock) (r : Request) (a? : Option r.Answer) : Stock :=
  { g with keys := g.keys ++ (a?.map (g.news r)).getD [] }

@[simp] theorem after_none (g : Stock) (r : Request) : g.after r none = g := by
  simp [after]

/-- To tell a participant brings nothing by itself. -/
@[simp] theorem after_notify (g : Stock) (p : Participant) (notice : Notice)
    (a? : Option (Result Unit)) : g.after (.notify p notice) a? = g := by
  cases a? <;> simp [after, news]

/-- The same errand, with more in stock. -/
def Grows (g g' : Stock) : Prop := g'.errand = g.errand ∧ g.keys ⊆ g'.keys

theorem Grows.refl (g : Stock) : g.Grows g := ⟨rfl, List.Subset.refl _⟩

theorem Grows.trans {g g' g'' : Stock} (h : g.Grows g') (h' : g'.Grows g'') : g.Grows g'' :=
  ⟨h'.1.trans h.1, List.Subset.trans h.2 h'.2⟩

theorem grows_of_after {g g' : Stock} {r : Request} {a? : Option r.Answer}
    (h : (g.after r a?).Grows g') : g.Grows g' :=
  ⟨h.1, List.Subset.trans (List.subset_append_left _ _) h.2⟩

theorem allows_of_apart {r : Request} (h : r.Apart) (g : Stock) : g.Allows r := by
  match r with
  | .under (.queue id call) =>
    obtain ⟨htakes, hne⟩ := h
    cases call with
    | enqueue d => exact absurd rfl (hne d)
    | dequeue | tryDequeue | dequeueNoWait | dequeueTimeout => cases htakes
    | waitForMessage | close | look => exact nofun
  | .under (.transaction id part) =>
    cases part with
    | enlist p =>
      cases p with
      | delivery e => exact absurd rfl (h e)
      | other => trivial
    | ensureActive | begin | finish | abandon | look => trivial
  | .outside (.channel id call) =>
    intro hsettles
    rw [show call.settles = false from h] at hsettles
    cases hsettles
  | .under (.lifecycle _ _) | .under .newFlag | .under (.settle _) | .outside (.log _ _) => trivial
  | .notify _ _ => exact h.elim

end Stock

/-- **The discipline of deliveries at consumers that share queues.** -/
def stocking : Discipline Client.interface Stock where
  Permits g r := g.Allows r
  Leads g r a g' := (g.after r (some a)).Grows g'

/-! ## Standing by -/

section Follows

variable {g : Stock} {α : Type} {Post : α → Stock → Prop}

theorem ask_follows_of_apart {r : Request} {next : r.Answer → Action α} (h : r.Apart)
    (hnext : ∀ a g', g.Grows g' → (next a).Follows stocking Post g') :
    (Program.ask (I := interface) r next).Follows stocking Post g :=
  ⟨g.allows_of_apart h, fun a g' hlead => hnext a g' (Stock.grows_of_after hlead)⟩

/-- A request that is allowed takes nothing out of stock. -/
theorem keeps_stocking {r : Request} {keys : List DeliveryKey}
    (hallows : ∀ g' : Stock, keys ⊆ g'.keys → g'.Allows r) :
    stocking.Keeps (fun g' => g.Grows g' ∧ keys ⊆ g'.keys) r := by
  rintro g' ⟨hg, hkeys⟩
  refine ⟨hallows g' hkeys, fun a g'' hlead => ?_⟩
  have hgrows := Stock.grows_of_after hlead
  exact ⟨hg.trans hgrows, List.Subset.trans hkeys hgrows.2⟩

/-- Whoever takes the participants has their deliveries in stock. -/
theorem tends_stocking (t : TransactionId) (g : Stock) :
    Tends stocking t (fun all g' => g.Grows g' ∧ enlistedKeys all ⊆ g'.keys) g where
  begin := trivial
  begun := fun all g' hlead =>
    ⟨Stock.grows_of_after hlead, List.Subset.trans (List.subset_append_right _ _) hlead.2⟩
  refused := fun e g' hlead => ⟨Stock.grows_of_after hlead, List.nil_subset _⟩
  abandon := trivial
  abandoned := fun all g' hlead =>
    ⟨Stock.grows_of_after hlead, List.Subset.trans (List.subset_append_right _ _) hlead.2⟩
  notify := by
    intro all p hp notice
    refine keeps_stocking fun g' hkeys => ?_
    cases p with
    | delivery e => exact hkeys (key_mem_enlistedKeys hp)
    | other => trivial
  log := fun all level text => keeps_stocking fun _ _ => trivial
  finish := fun all outcome => keeps_stocking fun _ _ => trivial

/-- Whoever keeps apart from deliveries is aloof. -/
theorem aloof_of_asks {p : Action α} (h : p.Asks Client.Request.Apart) : Aloof p := by
  induction h with
  | done a => exact .done a
  | ask hr _ ih => exact .ask hr ih

/-- **Who stands by follows the discipline**, with any stock. -/
theorem Aloof.follows {p : Action α} (h : Aloof p) :
    p.Follows stocking (fun _ g' => g.Grows g') g := by
  have hrest : ∀ {p : Action α} {g g' : Stock}, g.Grows g' →
      p.Follows stocking (fun _ g'' => g'.Grows g'') g' →
      p.Follows stocking (fun _ g'' => g.Grows g'') g' :=
    fun hg hp => hp.mono fun _ _ hg' => hg.trans hg'
  induction h generalizing g with
  | done a => exact .refl g
  | ask hr _ ih => exact ask_follows_of_apart hr fun a g' hg => hrest hg (ih a)
  | complete how t _ ih =>
    refine (how.keeps (tends_stocking t g)).bind fun a g' ⟨all, hg, _⟩ => ?_
    exact hrest hg (ih a)
  | discard t _ ih =>
    refine (discard_keeps (tends_stocking t g)).bind fun a g' ⟨all, hg, _⟩ => ?_
    exact hrest hg (ih a)

/-- An enlistment settles what is in stock. -/
theorem Enlistment.notify_stocks (e : Enlistment) (notice : Notice) (h : e.key ∈ g.keys) :
    (e.notify notice).Follows stocking (fun _ g' => g.Grows g') g := by
  have hsettle : ∀ call : Channel.Call, call.tag = e.tag →
      (e.settle call).Follows stocking (fun _ g' => g.Grows g') g := by
    refine fun call htag => ask_follows_of_apart trivial fun fresh g' hg => ?_
    cases fresh with
    | true =>
      refine ⟨fun _ => htag ▸ hg.2 h, fun answer g'' hlead => ?_⟩
      exact hg.trans (Stock.grows_of_after hlead)
    | false => exact hg
  cases notice with
  | prepare => exact .refl g
  | commit | rollback => exact hsettle _ rfl
  | inDoubt => exact ask_follows_of_apart trivial fun _ _ hg => hg

/-! ## Bringing and taking -/

/-- The thread takes deliveries through the consumer `c`, and has the one
that it has taken in stock. -/
def Stock.Knows (g : Stock) (c : Consumer) (d? : Option Delivery) : Prop :=
  (∃ how, g.errand = .take how ∧ how.consumer = c) ∧
    ∀ d, d? = some d → (c.channel, d.tag) ∈ g.keys

theorem Stock.Knows.grows {g g' : Stock} {c : Consumer} {d? : Option Delivery}
    (h : g.Knows c d?) (hg : g.Grows g') : g'.Knows c d? := by
  obtain ⟨⟨how, herrand, hc⟩, hkey⟩ := h
  exact ⟨⟨how, hg.1.trans herrand, hc⟩, fun d hd => hg.2 (hkey d hd)⟩

/-- A thread that has taken nothing. -/
theorem Stock.Knows.forget {g : Stock} {c : Consumer} {d? : Option Delivery} (h : g.Knows c d?) :
    g.Knows c none := by
  refine ⟨h.1, fun d hd => ?_⟩
  cases hd

variable {d? : Option Delivery} {d : Delivery}

namespace Consumer

variable {c : Consumer}

/-- The broker pushes a delivery. -/
theorem deliver_stocks (h : g.errand = .deliver c d) :
    (c.deliver d).Follows stocking (fun _ _ => True) g := by
  refine ask_follows_of_apart trivial fun _ g' hg => ?_
  refine ⟨⟨c, hg.1.trans h, rfl⟩, fun answer g'' _ => ?_⟩
  cases answer with
  | ok => trivial
  | error => exact ask_follows_of_apart trivial fun _ _ _ => trivial

/-- **A delivery is in stock under the channel of the consumer that it is
taken through.** -/
theorem queue_stocks (h : g.Knows c none) (call : Queue.Call Delivery)
    (hcall : ∀ d, call ≠ .enqueue d) :
    (Client.queue c.queue call).Follows stocking (fun a g' => g'.Knows c (Hand.given call a))
      g := by
  obtain ⟨⟨how, herrand, hc⟩, -⟩ := h
  refine ⟨?_, fun a g' hlead => ?_⟩
  · have hallows : call.takes → ∃ how, g.errand = .take how ∧ how.consumer.queue = c.queue :=
      fun _ => ⟨how, herrand, by rw [hc]⟩
    cases call with
    | enqueue d => exact absurd rfl (hcall d)
    | _ => exact hallows
  · refine ⟨⟨how, hlead.1.trans herrand, hc⟩, fun d hd => hlead.2 ?_⟩
    simp [Stock.after, Stock.news, herrand, Errand.channel?, hc, hd]

/-- What the mode does to a delivery that was taken. -/
theorem onDequeued_stocks (h : g.Knows c (some d)) :
    (c.onDequeued d).Follows stocking (fun _ g' => g'.Knows c (some d)) g := by
  unfold Consumer.onDequeued
  cases c.mode with
  | auto =>
    refine ask_follows_of_apart trivial fun _ g' hg => ?_
    refine ⟨fun _ => (h.grows hg).2 d rfl, fun answer g'' hlead => ?_⟩
    exact (h.grows hg).grows (Stock.grows_of_after hlead)
  | manual | transactional => exact h

theorem settleDequeued_stocks (h : g.Knows c d?) :
    (c.settleDequeued d?).Follows stocking (fun r g' => g'.Knows c r.toOption.join) g := by
  cases d? with
  | none => exact h
  | some d =>
    exact Action.follows_andThen (onDequeued_stocks h) (fun _ _ hg => hg) fun _ _ hg => hg.forget

theorem dequeue_stocks (h : g.Knows c none) :
    c.dequeue.Follows stocking (fun r g' => g'.Knows c r.toOption) g := by
  have htake := queue_stocks h .dequeue (by simp)
  refine Action.follows_andThen htake (fun d g' hg => ?_) fun _ _ hg => hg.forget
  exact Action.follows_andThen (onDequeued_stocks hg) (fun _ _ hg => hg) fun _ _ hg => hg.forget

theorem dequeueTimeout_stocks (h : g.Knows c none) (timeout : Timeout) :
    (c.dequeueTimeout timeout).Follows stocking (fun r g' => g'.Knows c r.toOption.join) g :=
  Action.follows_andThen (queue_stocks h (.dequeueTimeout timeout) (by simp))
    (fun _ _ hg => settleDequeued_stocks hg) fun _ _ hg => hg.forget

theorem dequeueNoWait_stocks (h : g.Knows c none) :
    c.dequeueNoWait.Follows stocking (fun r g' => g'.Knows c r.toOption.join) g :=
  Action.follows_andThen (queue_stocks h .tryDequeue (by simp))
    (fun _ _ hg => settleDequeued_stocks hg) fun _ _ hg => hg.forget

theorem nextDelivery_stocks (h : g.Knows c none) (it : Queue.Iterator) :
    (c.nextDelivery it).Follows stocking (fun _ _ => True) g := by
  unfold nextDelivery
  split
  · trivial
  · exact (dequeue_stocks h).bind fun _ _ _ => trivial

end Consumer

/-! ## Taking under a transaction -/

namespace TransactionalConsumer

variable {c : TransactionalConsumer} {t : TransactionId}

/-- **An enlistment has the channel of the consumer that took the
delivery**, and so has the call that hands it back. -/
theorem enlist_stocks (h : g.Knows c.inner (some d)) :
    (c.enlist t d).Follows stocking (fun _ _ => True) g := by
  refine ask_follows_of_apart trivial fun flag g' hg => ?_
  have hknows := h.grows hg
  refine ⟨hknows.2 d rfl, fun answer g'' hlead => ?_⟩
  cases answer with
  | ok => exact ask_follows_of_apart trivial fun _ _ _ => trivial
  | error e =>
    refine ask_follows_of_apart trivial fun _ g''' hg' => ?_
    have hstill := (hknows.grows (Stock.grows_of_after hlead)).grows hg'
    refine ⟨fun _ => hstill.2 d rfl, fun answer _ _ => ?_⟩
    cases answer <;> trivial

theorem enlistDequeued_stocks (h : g.Knows c.inner d?) :
    (c.enlistDequeued t d?).Follows stocking (fun _ _ => True) g := by
  cases d? with
  | none => trivial
  | some d =>
    exact Action.follows_andThen (enlist_stocks h) (fun _ _ _ => trivial) fun _ _ _ => trivial

/-- The transaction is asked first. -/
theorem whenActive_stocks {action : Action (Result α)} (h : g.Knows c.inner none)
    (haction : ∀ g', g'.Knows c.inner none → action.Follows stocking (fun _ _ => True) g') :
    (whenActive t action).Follows stocking (fun _ _ => True) g := by
  refine ask_follows_of_apart nofun fun answer g' hg => ?_
  cases answer with
  | ok => exact haction g' (h.grows hg)
  | error => trivial

theorem dequeue_stocks (h : g.Knows c.inner none) :
    (c.dequeue t).Follows stocking (fun _ _ => True) g := by
  refine whenActive_stocks h fun g' hg => ?_
  refine Action.follows_andThen (Consumer.dequeue_stocks hg) (fun d g'' hg' => ?_)
    fun _ _ _ => trivial
  exact Action.follows_andThen (enlist_stocks hg') (fun _ _ _ => trivial) fun _ _ _ => trivial

theorem dequeueTimeout_stocks (h : g.Knows c.inner none) (timeout : Timeout) :
    (c.dequeueTimeout timeout t).Follows stocking (fun _ _ => True) g :=
  whenActive_stocks h fun _ hg =>
    Action.follows_andThen (Consumer.dequeueTimeout_stocks hg timeout)
      (fun _ _ hg' => enlistDequeued_stocks hg') fun _ _ _ => trivial

theorem dequeueNoWait_stocks (h : g.Knows c.inner none) :
    (c.dequeueNoWait t).Follows stocking (fun _ _ => True) g :=
  whenActive_stocks h fun _ hg =>
    Action.follows_andThen (Consumer.dequeueNoWait_stocks hg)
      (fun _ _ hg' => enlistDequeued_stocks hg') fun _ _ _ => trivial

end TransactionalConsumer

/-! ## Every errand -/

/-- The dequeue of a subscriber is the one of its mode. -/
theorem Subscriber.dequeue_stocks {s : Subscriber} (h : g.Knows s.consumer none)
    (t? : Option TransactionId) :
    (s.dequeue t?).Follows stocking (fun _ _ => True) g := by
  have hplain := (Consumer.dequeueTimeout_stocks h s.receiveTimeout).mono fun _ _ _ => trivial
  refine forward_of (P := (Program.Follows stocking (fun _ _ => True) · g)) (fun _ => hplain)
    fun hmode => ?_
  cases t? with
  | none => trivial
  | some t => exact TransactionalConsumer.dequeueTimeout_stocks (c := ⟨s.consumer, hmode⟩) h _

theorem Subscriber.receive_stocks {s : Subscriber} (h : g.Knows s.consumer none)
    (t? : Option TransactionId) :
    (s.receive t?).Follows stocking (fun _ _ => True) g := by
  refine (dequeue_stocks h t?).bind fun r g' _ => ?_
  match r with
  | .ok (some d) | .ok none => trivial
  | .error e =>
    cases e with
    | queueClosed =>
      have hended : Aloof s.endedByFault :=
        aloof_of_asks (s.endedByFault_asks trivial fun _ _ => trivial)
      have hclosed : s.closed.Follows stocking (fun _ _ => True) g' :=
        hended.follows.bind fun _ _ _ => trivial
      exact hclosed.bind fun _ _ _ => trivial
    | _ => trivial

/-- **Every call that takes a delivery follows the discipline.** -/
theorem Dequeue.follows (how : Dequeue) (h : g.Knows how.consumer none) :
    how.action.Follows stocking (fun _ _ => True) g := by
  cases how with
  | plain c pace =>
    cases pace with
    | waiting => exact (Consumer.dequeue_stocks h).bind fun _ _ _ => trivial
    | within timeout => exact (Consumer.dequeueTimeout_stocks h timeout).bind fun _ _ _ => trivial
    | atOnce => exact (Consumer.dequeueNoWait_stocks h).bind fun _ _ _ => trivial
  | under c pace t =>
    cases pace with
    | waiting => exact (TransactionalConsumer.dequeue_stocks h).bind fun _ _ _ => trivial
    | within timeout =>
      exact (TransactionalConsumer.dequeueTimeout_stocks h timeout).bind fun _ _ _ => trivial
    | atOnce => exact (TransactionalConsumer.dequeueNoWait_stocks h).bind fun _ _ _ => trivial
  | next c it => exact (Consumer.nextDelivery_stocks h it).bind fun _ _ _ => trivial
  | receive s t? => exact (Subscriber.receive_stocks h t?).bind fun _ _ _ => trivial

/-- **Every errand follows the discipline**, with nothing in stock at
first. -/
theorem Errand.follows (errand : Errand) :
    errand.action.Follows stocking (fun _ _ => True) ⟨errand, []⟩ := by
  cases errand with
  | deliver c d => exact (Consumer.deliver_stocks rfl).bind fun _ _ _ => trivial
  | take how => exact how.follows ⟨⟨how, rfl, rfl⟩, by simp⟩
  | stand program aloof => exact aloof.follows.mono fun _ _ _ => trivial

end Follows

end MessageIntake
