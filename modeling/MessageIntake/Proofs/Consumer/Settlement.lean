import MessageIntake.Proofs.Consumer.Handling

/-!
# Transactional deliveries are settled exactly once

Threads dequeue under one transaction, for any consumers, and complete
it, while others bring deliveries and cancel consumers. Under every
schedule, and whatever the channels answer, each delivery that was taken
is settled at most once; a dequeue returns its delivery if and only if
it enlisted it; and when everybody has returned, the outcome of the
transaction says how each delivery was settled (`settles_once`).
-/

namespace MessageIntake

open Client Transaction

variable {t : TransactionId} {α β : Type}

/-! ## Dequeues use the transaction -/

namespace Uses

variable {Allowed : Request → Prop}

theorem andThen {action : Action (Result α)} {next : α → Action (Result β)}
    (h : Uses t Allowed action) (hnext : ∀ a, Uses t Allowed (next a)) :
    Uses t Allowed (action.andThen next) := by
  refine h.bind fun r => ?_
  cases r with
  | ok a => exact hnext a
  | error e => exact .done _

end Uses

namespace TransactionalConsumer

variable (c : TransactionalConsumer)

theorem enlist_uses (d : Delivery) : Uses t (Request.Spares t) (c.enlist t d) := by
  refine .ask trivial fun flag => .ask (fun _ => rfl) fun answer => ?_
  cases answer with
  | ok => exact .ask trivial fun _ => .done _
  | error e =>
    refine .ask trivial fun _ => .ask trivial fun answer => ?_
    cases answer <;> exact .done _

theorem enlistDequeued_uses (d? : Option Delivery) :
    Uses t (Request.Spares t) (c.enlistDequeued t d?) := by
  cases d? with
  | none => exact .done _
  | some d => exact (c.enlist_uses d).andThen fun _ => .done _

theorem whenActive_uses {action : Action (Result α)} (h : Uses t (Request.Spares t) action) :
    Uses t (Request.Spares t) (whenActive t action) := by
  refine .ask (fun _ => rfl) fun answer => ?_
  cases answer with
  | ok => exact h
  | error => exact .done _

theorem dequeue_uses : Uses t (Request.Spares t) (c.dequeue t) := by
  have htake : Uses t (Request.Spares t) c.inner.dequeue := by
    refine Uses.andThen (.ask trivial .done) fun d => ?_
    rw [inner_onDequeued]
    exact .done _
  exact whenActive_uses (htake.andThen fun d => (c.enlist_uses d).andThen fun _ => .done _)

/-- A dequeue that may come without a delivery, by the call `poll` on the
queue. -/
theorem poll_uses {poll : Action (Result (Option Delivery))} (h : Uses t (Request.Spares t) poll) :
    Uses t (Request.Spares t)
      (whenActive t ((poll.andThen c.inner.settleDequeued).andThen (c.enlistDequeued t))) := by
  rw [inner_settleDequeued]
  exact whenActive_uses ((h.andThen fun d? => .done _).andThen c.enlistDequeued_uses)

theorem dequeueTimeout_uses (timeout : Timeout) :
    Uses t (Request.Spares t) (c.dequeueTimeout timeout t) :=
  c.poll_uses (.ask trivial .done)

theorem dequeueNoWait_uses : Uses t (Request.Spares t) (c.dequeueNoWait t) :=
  c.poll_uses (.ask trivial .done)

end TransactionalConsumer

/-! ## Who stands by -/

namespace Consumer

open Settlement

variable (c : Consumer)

/-- The broker pushes a delivery. -/
theorem deliver_uses (d : Delivery) : Uses t (Idle t) (c.deliver d) := by
  refine .ask ⟨trivial, trivial⟩ fun _ => .ask ⟨rfl, trivial⟩ fun answer => ?_
  cases answer with
  | ok => exact .done _
  | error => exact .ask ⟨trivial, trivial⟩ fun _ => .done _

theorem onCancel_uses : Uses t (Idle t) c.onCancel := by
  refine .ask ⟨trivial, trivial⟩ fun ⟨previous, tag⟩ => ?_
  dsimp only [Program.done_bind]
  split
  · exact .done _
  · exact .ask ⟨rfl, trivial⟩ fun _ => .ask ⟨rfl, trivial⟩ fun _ =>
      .ask ⟨trivial, trivial⟩ fun _ => .done _

/-- The application cancels the consumer. -/
theorem cancel_uses : Uses t (Idle t) c.cancel := by
  refine .ask ⟨trivial, trivial⟩ fun tag => ?_
  cases tag with
  | none => exact c.onCancel_uses.bind fun _ => .done _
  | some tag => exact .ask ⟨rfl, trivial⟩ fun _ => c.onCancel_uses.bind fun _ => .done _

end Consumer

namespace Settlement

/-! ## What the threads do -/

/-- A program beside the dequeues: it brings deliveries or cancels
consumers, say (`Consumer.deliver_uses`, `Consumer.cancel_uses`), and may
use the transaction. -/
structure Bystander (t : TransactionId) where
  program : Action Unit
  uses : Uses t (Idle t) program

/-- What a thread does under the transaction `t`. -/
inductive Activity (t : TransactionId) where
  | dequeue (c : TransactionalConsumer)
  | dequeueTimeout (c : TransactionalConsumer) (timeout : Timeout)
  | dequeueNoWait (c : TransactionalConsumer)
  | complete (how : Completion)
  | discard
  | stand (b : Bystander t)

namespace Activity

/-- The program of an activity; all but the dequeues return no
delivery. -/
def action : Activity t → Action (Result (Option Delivery))
  | dequeue c => (c.dequeue t).andThen fun d => return .ok (some d)
  | dequeueTimeout c timeout => c.dequeueTimeout timeout t
  | dequeueNoWait c => c.dequeueNoWait t
  | complete how => (how.action t).andThen fun _ => return .ok none
  | discard => do
    Transaction.discard t
    return .ok none
  | stand b => do
    b.program
    return .ok none

/-- The channel that the delivery of a dequeue is settled on. -/
def channel? : Activity t → Option ChannelId
  | dequeue c | dequeueTimeout c _ | dequeueNoWait c => some c.inner.channel
  | complete _ | discard | stand _ => none

theorem uses (a : Activity t) : Uses t (Request.Spares t) a.action := by
  cases a with
  | dequeue c => exact c.dequeue_uses.andThen fun _ => .done _
  | dequeueTimeout c timeout => exact c.dequeueTimeout_uses timeout
  | dequeueNoWait c => exact c.dequeueNoWait_uses
  | complete how => exact .complete how fun r => by cases r <;> exact .done _
  | discard => exact .discard fun _ => .done _
  | stand b => exact (b.uses.mono fun _ hr => hr.2).bind fun _ => .done _

/-- What a thread has in hand before it starts. -/
def hand (a : Activity t) : Hand := (a.channel?.map .ready).getD .empty

/-- How an activity ends. -/
def Ends (a : Activity t) (r : Result (Option Delivery)) (g : Hand) : Prop :=
  match a.channel? with
  | some channel => TransactionalConsumer.Ends channel r g
  | none => g = .empty

/-- A dequeue that has ended returns what it has taken and enlisted. -/
theorem returned_iff {channel : ChannelId} {r : Result (Option Delivery)} {g : Hand}
    (h : TransactionalConsumer.Ends channel r g) (d : Delivery) :
    r = .ok (some d) ↔ ∃ flag, g.delivery?.toList = [d] ∧
      g.enlistment?.toList = [⟨flag, d.tag, channel⟩] := by
  match r with
  | .ok (some d') =>
    obtain ⟨flag, rfl⟩ := h
    constructor
    · intro hr
      cases hr
      exact ⟨flag, rfl, rfl⟩
    · rintro ⟨flag', hd, -⟩
      cases hd
      rfl
  | .ok none =>
    obtain rfl := h
    simp [Hand.delivery?]
  | .error e =>
    rcases h with rfl | ⟨d', rfl⟩ <;> simp [Hand.enlistment?]

/-- **Every activity follows the discipline of deliveries.** -/
theorem handles (a : Activity t) : a.action.Follows (handling t) a.Ends a.hand := by
  cases a with
  | dequeue c => exact c.dequeue_follows
  | dequeueTimeout c timeout => exact c.dequeueTimeout_follows timeout
  | dequeueNoWait c => exact c.dequeueNoWait_follows
  | complete how =>
    exact Action.follows_andThen how.handles (fun _ _ hg => hg) fun _ _ hg => hg
  | discard => exact discard_handles.bind fun _ _ hg => hg
  | stand b => exact (b.uses.handles fun _ hr => hr.1).bind fun _ _ hg => hg

/-- Who has ended has nothing on its way. -/
theorem Ends.at_rest {a : Activity t} {r : Result (Option Delivery)} {g : Hand} (h : a.Ends r g) :
    g.key? = none ∧ g.call? = none := by
  unfold Ends at h
  split at h
  · match r with
    | .ok (some d) =>
      obtain ⟨flag, rfl⟩ := h
      exact ⟨rfl, rfl⟩
    | .ok none =>
      obtain rfl := h
      exact ⟨rfl, rfl⟩
    | .error _ =>
      rcases h with rfl | ⟨d, rfl⟩ <;> exact ⟨rfl, rfl⟩
  · subst h
    exact ⟨rfl, rfl⟩

end Activity

/-- The channel that thread `i` settles on, if it dequeues. -/
def channels (activities : List (Activity t)) (i : Nat) : Option ChannelId :=
  activities[i]?.bind Activity.channel?

/-- A run of activities under the new transaction `t`, one thread each. -/
def runActivities (S : Surroundings) (w : World) (activities : List (Activity t))
    (schedule : List (Machine.Move interface (Result (Option Delivery)))) :
    History interface (Setting S) (Result (Option Delivery)) :=
  (Machine.start (.renewed t w) (activities.map Activity.action)).run schedule

section Run

variable (A : Audience t) (w : World) (activities : List (Activity t))
variable (schedule : List (Machine.Move interface (Result (Option Delivery))))

/-- Where the transaction stands at every point of a run of
activities. -/
theorem standing_activities :
    let h := runActivities A.toSurroundings w activities schedule
    ∃ ds, Stands t h.trace h.machine.shared ds ∧
      Follow (completing t) (fun _ _ g => ∀ d, g = some d → d.Done) h.machine.programs ds := by
  have huses : ∀ p ∈ activities.map Activity.action, Uses t (Request.Spares t) p := by
    intro p hp
    obtain ⟨a, -, rfl⟩ := List.mem_map.mp hp
    exact a.uses
  obtain ⟨ds, hstands, -, hfollow⟩ := standing (C := A.company) huses w schedule
  exact ⟨ds, hstands, hfollow⟩

/-- **The books at every point of a run of activities.** A thread that has
ended has in hand what its activity leaves. -/
theorem books_activities :
    let h := runActivities A.toSurroundings w activities schedule
    ∃ gs, Books t (channels activities) h.trace gs ∧
      Follow (handling t) (fun i r g => ∀ a, activities[i]? = some a → a.Ends r g)
        h.machine.programs gs := by
  have hnothing : ∀ g ∈ activities.map Activity.hand,
      g = .empty ∨ ∃ channel, g = .ready channel := by
    intro g hg
    obtain ⟨a, -, rfl⟩ := List.mem_map.mp hg
    unfold Activity.hand
    cases a.channel? with
    | none => exact .inl rfl
    | some channel => exact .inr ⟨channel, rfl⟩
  have hpost : ∀ i channel, (activities.map Activity.hand)[i]? = some (.ready channel) →
      channels activities i = some channel := by
    intro i channel hi
    rw [List.getElem?_map, Option.map_eq_some_iff] at hi
    obtain ⟨a, ha, hhand⟩ := hi
    rw [channels, ha, Option.bind_some]
    unfold Activity.hand at hhand
    cases hchannel : a.channel? <;> simp_all
  have hbooks : Books t (channels activities) ([] : Trace A.toSurroundings)
      (activities.map Activity.hand) := .start hnothing hpost
  have hfollow : Follow (handling t) (fun i r g => ∀ a, activities[i]? = some a → a.Ends r g)
      (activities.map Activity.action) (activities.map Activity.hand) := by
    refine ⟨by simp, fun {i p} hp => ?_⟩
    rw [List.getElem?_map, Option.map_eq_some_iff] at hp
    obtain ⟨a, ha, rfl⟩ := hp
    refine ⟨a.hand, by simp [ha], a.handles.mono fun r g hends a' ha' => ?_⟩
    rw [ha, Option.some_inj] at ha'
    exact ha' ▸ hends
  obtain ⟨gs, ⟨hbooks', -⟩, hfollow'⟩ := handling_upholds.run ⟨hbooks, .start hnothing _⟩ hfollow
    (fun schedule => (standing_activities A w activities schedule).imp fun _ h => h.1) schedule
  exact ⟨gs, hbooks', hfollow'⟩

theorem length_programs_runActivities :
    (runActivities A.toSurroundings w activities schedule).machine.programs.length =
      activities.length := by
  rw [runActivities, Machine.length_programs_run, Machine.programs_start, List.length_map]

/-- When everybody has returned, whoever keeps a note has ended with it. -/
theorem exists_result_of_ended {γ : Type} {D : Discipline interface γ}
    {Post : Nat → Result (Option Delivery) → γ → Prop} {gs : List γ} {i : Nat} {g : γ}
    (hended : ∀ i < activities.length,
      ((runActivities A.toSurroundings w activities schedule).machine.result? i).isSome)
    (hfollow : Follow D Post
      (runActivities A.toSurroundings w activities schedule).machine.programs gs)
    (hg : gs[i]? = some g) : i < activities.length ∧ ∃ r, Post i r g := by
  have hlt : i < activities.length := by
    rw [← length_programs_runActivities A w activities schedule, ← hfollow.length_eq]
    exact (List.getElem?_eq_some_iff.mp hg).1
  obtain ⟨r, hr⟩ := Option.isSome_iff_exists.mp (hended i hlt)
  obtain ⟨g', hg', hpost⟩ := hfollow.result hr
  obtain rfl : g = g' := Option.some_inj.mp (hg.symm.trans hg')
  exact ⟨hlt, r, hpost⟩

/-- When everybody has returned, the transaction is active or over, and
its outcome says what was told to settle. -/
theorem orderedCalls_of_ended :
    let h := runActivities A.toSurroundings w activities schedule
    (∀ i < activities.length, (h.machine.result? i).isSome) →
    (h.machine.shared.transaction t).status ≠ .completing ∧
      orderedCalls (notices h.trace) =
        (enlistments t h.trace).filterMap (verdict? (h.machine.shared.transaction t).status) := by
  intro h hended
  obtain ⟨ds, hstands, hfollow⟩ := standing_activities A w activities schedule
  by_cases hnone : winners t h.trace = []
  · -- nobody has completed the transaction, so nobody was told anything
    have hactive := hstands.active_iff.mpr hnone
    obtain ⟨-, -, huntold, -⟩ := hstands.of_active hactive
    refine ⟨by rw [hactive]; nofun, ?_⟩
    rw [hactive, huntold]
    simp [verdict?, orderedCalls, orders]
  · obtain ⟨i, hi⟩ := List.exists_mem_of_ne_nil _ hnone
    obtain ⟨d, hd⟩ := hstands.exists_duty hi
    obtain ⟨-, -, hdone⟩ := exists_result_of_ended A w activities schedule hended hfollow hd
    have hcomplete := hstands.complete hi hd hdone
    refine ⟨fun hcompleting => ?_, orderedCalls_of_complete hcomplete⟩
    -- a duty that is done has set a final status
    have hfinal := hcomplete.isFinal
    rw [hcompleting] at hfinal
    cases hfinal

end Run

/-! ## Exactly once -/

/-- **What it means that deliveries under the transaction `t` are settled
exactly once** in a run of activities. -/
structure SettlesOnce {S : Surroundings} (activities : List (Activity t))
    (h : History interface (Setting S) (Result (Option Delivery))) : Prop where
  /-- At every point, the calls that settle are for deliveries that were
  taken, at most one for each. -/
  atMostOnce : ((settlements h.trace).map settledKey).Subperm
    (takenKeys (channels activities) h.trace)
  /-- A dequeue that has returned returns a delivery if and only if it took
  this delivery and enlisted it. -/
  returned : ∀ i a channel r d, activities[i]? = some a → a.channel? = some channel →
    h.machine.result? i = some r →
    (r = .ok (some d) ↔ ∃ flag, (eventsOf i h.trace).filterMap taken? = [d] ∧
      (eventsOf i h.trace).filterMap (accepted? t) = [⟨flag, d.tag, channel⟩])
  /-- When everybody has returned, every delivery that was taken is enlisted
  or refused; the enlisted ones were settled by the outcome, and the
  refused ones handed back, each by one call, and no other call was made. -/
  exactlyOnce : (∀ i < activities.length, (h.machine.result? i).isSome) →
    (h.machine.shared.transaction t).status ≠ .completing ∧
    (takenKeys (channels activities) h.trace).Perm
      ((enlistments t h.trace).map Enlistment.key ++ (refusals t h.trace).map Enlistment.key) ∧
    (settlements h.trace).Perm ((refusals t h.trace).map handBack ++
      (enlistments t h.trace).filterMap (verdict? (h.machine.shared.transaction t).status))

/-- **Transactional deliveries are settled exactly once**, whatever the
consumers, the channels, the participants and the schedule are. -/
theorem settles_once (A : Audience t) (w : World) (activities : List (Activity t))
    (schedule : List (Machine.Move interface (Result (Option Delivery)))) :
    SettlesOnce activities (runActivities A.toSurroundings w activities schedule) := by
  obtain ⟨ds, hstands, -⟩ := standing_activities A w activities schedule
  obtain ⟨gs, hbooks, hfollow⟩ := books_activities A w activities schedule
  refine ⟨hbooks.settlements_subperm hstands.underway, ?_, ?_⟩
  · intro i a channel r d ha hchannel hr
    obtain ⟨g, hg, hends⟩ := hfollow.result hr
    obtain ⟨htaken, haccepted⟩ := hbooks.own i g hg
    have hends' := hends a ha
    unfold Activity.Ends at hends'
    rw [hchannel] at hends'
    rw [htaken, haccepted]
    exact Activity.returned_iff hends' d
  · intro hended
    obtain ⟨hstatus, horders⟩ := orderedCalls_of_ended A w activities schedule hended
    have hrest : ∀ g ∈ gs, g.key? = none ∧ g.call? = none := by
      intro g hg
      obtain ⟨i, hi⟩ := List.getElem?_of_mem hg
      obtain ⟨hlt, r, hends⟩ := exists_result_of_ended A w activities schedule hended hfollow hi
      exact (hends _ (List.getElem?_eq_getElem hlt)).at_rest
    obtain ⟨htaken, hsettled⟩ := hbooks.at_rest hrest
    rw [horders] at hsettled
    exact ⟨hstatus, htaken, hsettled⟩

/-- A delivery is taken without waiting, and the transaction is committed. -/
example :
    let buffered : Queue Delivery :=
      { items := [{ (default : Delivery) with tag := 7 }], isOpen := true }
    let w : World := { queues := ({} : Store (Queue Delivery)).set 0 buffered }
    let h := runActivities (t := 0) (default : Audience 0).toSurroundings w
      [.dequeueNoWait default, .complete .commit]
      (List.replicate 5 (.advance .longest 0) ++ List.replicate 8 (.advance .longest 1))
    settlements h.trace = [(0, .acknowledge 7)] := by rfl

end Settlement

end MessageIntake
