import MessageIntake.Proofs.Consumer.Conduct
import MessageIntake.Proofs.Machine.Front
import MessageIntake.Proofs.Transaction.Calls
import MessageIntake.Session.State

/-!
# A subscriber in front of its consumer

A subscriber is used as the consumer is that its configuration selects,
save for the one call to receive; what it offers besides is that
consumer's (`Face.fronts_make`). Whatever threads do with the
subscriber and with transactions, they can do with a consumer that is
made directly, and the other way round: the same calls are made and
the same states are passed in the same order, and a receive call conveys
what the dequeue in its place returns (`fronts_consumer`).

All that the subscriber does besides is to look at its lifecycle and to
write to the log when the queue has been closed.
-/

namespace MessageIntake.Front

open Client Session

variable {R : Reactions} {α β : Type}

/-! ## Operations -/

/-- What a thread does with a subscriber, or with the consumer in its place,
and with transactions. -/
inductive Operation where
  | callback (report : Callback)
  | cancel
  | waitForMessage (timeout : Timeout)
  | receive (t? : Option TransactionId)
  | complete (how : Transaction.Completion) (t : TransactionId)
  /-- Anything that has nothing to do with either. -/
  | other (program : Action (Result Unit))

/-- What an operation returns; `α` is what a receive call does. -/
inductive Reply (α : Type) where
  | returned (r : Result Unit)
  | waited (found : Bool)
  | received (a : α)

/-- What threads use of a subscriber, or of the consumer in its place. -/
structure Face (α : Type) where
  callbacks : BasicConsumer
  cancel : Action (Result Unit)
  waitForMessage : Timeout → Action Bool
  receive : Option TransactionId → Action α

/-- The program of an operation. -/
def Operation.action (face : Face α) : Operation → Action (Reply α)
  | .callback report => do return .returned (← report.on face.callbacks)
  | .cancel => do return .returned (← face.cancel)
  | .waitForMessage timeout => do return .waited (← face.waitForMessage timeout)
  | .receive t? => do return .received (← face.receive t?)
  | .complete how t => do return .returned (← how.action t)
  | .other program => do return .returned (← program)

/-- The kind of consumer that a mode selects. -/
def kind : AckMode → ConsumerKind
  | .auto => .auto
  | .manual => .manual
  | .transactional => .transactional

/-- What a receive call is to a consumer that is made directly: a dequeue,
under the transaction if the consumer is transactional. Without one there
is no such call. -/
def dequeue (timeout : Timeout) : Holder → Option TransactionId →
    Action (Option (Result (Option Delivery)))
  | .plain c, _ => do return some (← c.dequeueTimeout timeout)
  | .transactional c, some t => do return some (← c.dequeueTimeout timeout t)
  | .transactional _, none | .subscriber _, _ => return none

/-- What a subscriber offers. -/
def Face.ofSubscriber (s : Subscriber) : Face (Result Received) :=
  ⟨s.basicConsumer, s.cancel, s.waitForMessage, s.receive⟩

/-- What a consumer offers that is made directly. -/
def Face.ofDirect (h : Holder) (timeout : Timeout) : Face (Option (Result (Option Delivery))) :=
  ⟨h.basicConsumer, h.cancel, h.waitForMessage, dequeue timeout h⟩

/-- **What a receive call conveys** of the dequeue in its place. -/
inductive Conveys : Result Received → Option (Result (Option Delivery)) → Prop
  | delivery (d : Delivery) : Conveys (.ok (.delivery d)) (some (.ok (some d)))
  | timedOut : Conveys (.ok .timedOut) (some (.ok none))
  | closed (faulted : Bool) : Conveys (.ok (.closed faulted)) (some (.error .queueClosed))
  | failed {e : Error} : e ≠ .queueClosed → Conveys (.error e) (some (.error e))
  | unattended : Conveys (.error (.transaction (.notActive "NONE"))) none

/-- Replies that are the same but for what is received. -/
inductive Reply.Matches (Match : α → β → Prop) : Reply α → Reply β → Prop
  | returned (r : Result Unit) : Matches Match (.returned r) (.returned r)
  | waited (found : Bool) : Matches Match (.waited found) (.waited found)
  | received {a : α} {b : β} : Match a b → Matches Match (.received a) (.received b)

/-! ## Idle requests -/

/-- To look at the lifecycle `id`, and to write to the log. -/
def idle (id : LifecycleId) : Request → Bool
  | .under (.lifecycle id' .look) => id' = id
  | .outside (.log _ _) => true
  | _ => false

theorem idle_cases {id : LifecycleId} {r : Request} (h : idle id r) :
    r = .under (.lifecycle id .look) ∨ ∃ level text, r = .outside (.log level text) := by
  unfold idle at h
  split at h
  · obtain rfl := of_decide_eq_true h
    exact .inl rfl
  · exact .inr ⟨_, _, rfl⟩
  · cases h

/-- The lifecycle `id` has been made. -/
def Made (id : LifecycleId) (s : Scene R) : Prop := id < s.world.lifecycles.cells.size

theorem made_renewed (id : LifecycleId) (w : World) : Made id (Scene.renewed id w : Scene R) := by
  show id < (w.lifecycles.set id {}).cells.size
  rw [Store.size_set]
  exact Nat.lt_of_lt_of_le (Nat.lt_succ_self id) (Nat.le_max_right _ _)

/-- What is asked leaves the lifecycle made. -/
theorem made_serve {id : LifecycleId} {s : Scene R} (h : Made id s) (visit : Visit) (r : Request) :
    Made id (Server.serve (I := interface) visit s r).state := by
  match r with
  | .under (.lifecycle id' part) =>
    show id < (s.world.lifecycles.set id' ((s.lifecycle id').run part).1).cells.size
    rw [Store.size_set]
    exact Nat.lt_of_lt_of_le h (Nat.le_max_left _ _)
  | .under (.queue id' call) =>
    rw [Made, queue_serve]
    exact h
  | .under (.transaction _ _) | .under .newFlag | .under (.settle _) | .outside (.channel _ _)
  | .outside (.log _ _) | .notify (.delivery _) _ | .notify (.other _) _ => exact h

/-- **Looks and the log leave everything as it is.** -/
theorem idles (R : Reactions) (id : LifecycleId) :
    Idles (I := interface) (idle id) (Made id : Scene R → Prop) where
  keeps visit s r h := made_serve h visit r
  idles visit s r h hidle := by
    rcases idle_cases hidle with rfl | ⟨level, text, rfl⟩
    · refine ⟨s.lifecycle id, ?_⟩
      have hsame : s.world.lifecycles.set id (s.lifecycle id) = s.world.lifecycles :=
        s.world.lifecycles.set_get_self h
      rw [serve_lifecycle, Lifecycle.run, hsame]
    · exact ⟨(), rfl⟩

/-! ## Receiving -/

/-- To find out how the subscription has ended is idle. -/
theorem closed_fronts (s : Subscriber) :
    (s.closed.bind fun r => .done (.ok r)).Fronts (idle s.consumer.lifecycle) Conveys
      (.done (some (.error .queueClosed))) := by
  have hidle : s.endedByFault.Asks (idle s.consumer.lifecycle ·) :=
    s.endedByFault_asks (decide_eq_true rfl) fun _ _ => rfl
  have hclosed : s.closed.Fronts (idle s.consumer.lifecycle)
      (fun r r' => Conveys (.ok r) r') (.done (some (.error .queueClosed))) :=
    .before hidle fun faulted => .done (.closed faulted)
  exact hclosed.bind fun r r' h => .done h

/-- A receive call is in front of the dequeue that it makes. -/
theorem receive_fronts (s : Subscriber) {t? : Option TransactionId}
    {p : Action (Result (Option Delivery))} (hp : s.dequeue t? = p) :
    (s.receive t?).Fronts (idle s.consumer.lifecycle) Conveys (p.bind fun r => .done (some r)) := by
  subst hp
  refine .after (s.dequeue t?) fun r => ?_
  match r with
  | .ok (some d) => exact .done (.delivery d)
  | .ok none => exact .done .timedOut
  | .error e =>
    cases e with
    | queueClosed => exact closed_fronts s
    | channel | transaction | consumerInvalidState | configParseFailed | configInvalidValue =>
      exact .done (.failed nofun)

/-- The subscriber's consumer is the one that is made directly. -/
theorem consumer_make (lifecycle : LifecycleId) (channel : ChannelId) (queue : QueueId)
    (config : Config) :
    (Holder.make (kind config.ackMode) lifecycle channel queue config).consumer =
      (Subscriber.ofConfig lifecycle channel queue config).consumer := by
  obtain ⟨mode, -, -, -⟩ := config
  cases mode <;> rfl

/-- **A receive call is in front of what takes its place** at the consumer
that is made directly. -/
theorem receive_make_fronts (lifecycle : LifecycleId) (channel : ChannelId) (queue : QueueId)
    (config : Config) (t? : Option TransactionId) :
    ((Subscriber.ofConfig lifecycle channel queue config).receive t?).Fronts (idle lifecycle)
      Conveys (dequeue config.receiveTimeout
        (Holder.make (kind config.ackMode) lifecycle channel queue config) t?) := by
  obtain ⟨mode, millis, requeue, tag⟩ := config
  cases mode with
  | auto => exact receive_fronts (.ofConfig lifecycle channel queue ⟨.auto, _, _, _⟩) rfl
  | manual => exact receive_fronts (.ofConfig lifecycle channel queue ⟨.manual, _, _, _⟩) rfl
  | transactional =>
    cases t? with
    | some t =>
      exact receive_fronts (.ofConfig lifecycle channel queue ⟨.transactional, _, _, _⟩) rfl
    | none => exact .done .unattended

/-- A transactional subscriber that is given no transaction asks nothing. -/
theorem receive_of_unattended (lifecycle : LifecycleId) (channel : ChannelId) (queue : QueueId)
    {config : Config} (h : config.ackMode = .transactional) :
    (Subscriber.ofConfig lifecycle channel queue config).receive none =
      .done (.error (.transaction (.notActive "NONE"))) := by
  obtain ⟨mode, millis, requeue, tag⟩ := config
  obtain rfl : mode = .transactional := h
  rfl

/-- **A face in front of another**: all is the same, but for receive calls. -/
structure Face.Fronts (id : LifecycleId) (Match : α → β → Prop) (face : Face α) (face' : Face β) :
    Prop where
  callbacks : face.callbacks = face'.callbacks
  cancel : face.cancel = face'.cancel
  waitForMessage : face.waitForMessage = face'.waitForMessage
  receive : ∀ t?, (face.receive t?).Fronts (idle id) Match (face'.receive t?)

/-- What a subscriber forwards is asked of the consumer that is made directly. -/
theorem forward_make (lifecycle : LifecycleId) (channel : ChannelId) (queue : QueueId)
    (config : Config) {plain : Consumer → α} {transactional : TransactionalConsumer → α}
    {subscriber : Subscriber → α} :
    (Subscriber.ofConfig lifecycle channel queue config).forward plain transactional =
      (Holder.make (kind config.ackMode) lifecycle channel queue config).forward plain
        transactional subscriber := by
  obtain ⟨mode, -, -, -⟩ := config
  cases mode <;> rfl

/-- **A subscriber forwards what it does not do itself** to the consumer that
is made directly. -/
theorem Face.fronts_make (lifecycle : LifecycleId) (channel : ChannelId) (queue : QueueId)
    (config : Config) :
    (Face.ofSubscriber (.ofConfig lifecycle channel queue config)).Fronts lifecycle Conveys
      (.ofDirect (.make (kind config.ackMode) lifecycle channel queue config)
        config.receiveTimeout) where
  callbacks := forward_make lifecycle channel queue config
  cancel := forward_make lifecycle channel queue config
  waitForMessage := by
    funext timeout
    -- the subscriber waits at the queue, which is the consumer's
    have hforward : (Subscriber.ofConfig lifecycle channel queue config).waitForMessage timeout =
        (Subscriber.ofConfig lifecycle channel queue config).forward (·.waitForMessage timeout)
          (·.waitForMessage timeout) := by
      rw [Subscriber.waitForMessage_eq, Subscriber.forward_eq]
      exact fun _ => rfl
    exact hforward.trans (forward_make lifecycle channel queue config)
  receive := receive_make_fronts lifecycle channel queue config

/-- Every operation is in front of the same operation on the consumer. -/
theorem Operation.fronts {id : LifecycleId} {Match : α → β → Prop} {face : Face α} {face' : Face β}
    (h : face.Fronts id Match face') (o : Operation) :
    (o.action face).Fronts (idle id) (Reply.Matches Match) (o.action face') := by
  cases o with
  | callback report =>
    rw [action, action, h.callbacks]
    exact .after _ fun r => .done (.returned r)
  | cancel =>
    rw [action, action, h.cancel]
    exact .after _ fun r => .done (.returned r)
  | waitForMessage timeout =>
    rw [action, action, h.waitForMessage]
    exact .after _ fun found => .done (.waited found)
  | receive t? => exact (h.receive t?).bind fun a b hab => .done (.received hab)
  | complete | other => exact .after _ fun r => .done (.returned r)

/-! ## Transactions -/

/-- Requests that have nothing to do with transactions. -/
def Untied : Request → Prop
  | .under (.transaction _ _) | .under .newFlag | .under (.settle _) | .notify _ _ => False
  | .under (.queue _ _) | .under (.lifecycle _ _) | .outside _ => True

theorem onDequeued_asks (c : Consumer) (d : Delivery) : (c.onDequeued d).Asks Untied := by
  unfold Consumer.onDequeued
  cases c.mode with
  | auto => exact .ask trivial fun _ => .ask trivial fun _ => .done _
  | manual | transactional => exact .done _

theorem dequeueTimeout_asks (c : Consumer) (timeout : Timeout) :
    (c.dequeueTimeout timeout).Asks Untied := by
  refine .ask trivial fun r => ?_
  match r with
  | .ok (some d) =>
    refine (onDequeued_asks c d).bind fun r => ?_
    cases r <;> exact .done _
  | .ok none | .error _ => exact .done _

/-- Where no transaction is needed, none is touched. -/
theorem receive_asks {s : Subscriber} (h : s.consumer.mode ≠ .transactional)
    (t? : Option TransactionId) : (s.receive t?).Asks Untied := by
  have hdequeue : (s.dequeue t?).Asks Untied :=
    Subscriber.forward_of (P := Program.Asks (I := interface) Untied)
      (fun _ => dequeueTimeout_asks _ _) fun htransactional => absurd htransactional h
  have hclosed : s.closed.Asks Untied :=
    (s.endedByFault_asks trivial fun _ _ => trivial).bind fun _ => .done _
  refine hdequeue.bind fun r => ?_
  match r with
  | .ok (some d) | .ok none => exact .done _
  | .error e =>
    cases e with
    | queueClosed => exact hclosed.bind fun _ => .done _
    | channel | transaction | consumerInvalidState | configParseFailed | configInvalidValue =>
      exact .done _

/-! ## Runs -/

/-- Threads that are about to do their operations, each one after another, on
a new consumer among objects that are as they may be. -/
def start (R : Reactions) (lifecycle : LifecycleId) (face : Face α) (w : World)
    (duties : List (List Operation)) : Machine interface (Scene R) (List (Reply α)) :=
  .start (Scene.renewed lifecycle w) (duties.map fun ops => .inTurn (ops.map (·.action face)))

/-- A run with a subscriber. -/
def runSubscriber (R : Reactions) (s : Subscriber) (w : World) (duties : List (List Operation))
    (schedule : List (Machine.Move interface (List (Reply (Result Received))))) :
    History interface (Scene R) (List (Reply (Result Received))) :=
  (start R s.consumer.lifecycle (.ofSubscriber s) w duties).run schedule

/-- A run with a consumer that is made directly. -/
def runDirect (R : Reactions) (h : Holder) (timeout : Timeout) (w : World)
    (duties : List (List Operation))
    (schedule : List (Machine.Move interface (List (Reply (Option (Result (Option Delivery))))))) :
    History interface (Scene R) (List (Reply (Option (Result (Option Delivery))))) :=
  (start R h.consumer.lifecycle (.ofDirect h timeout) w duties).run schedule

/-- The call on a channel that an event is. -/
def called? (e : Event interface (Scene R)) : Option (ChannelId × Channel.Call) :=
  match e.request with
  | .outside (.channel id call) => some (id, call)
  | _ => none

/-- The calls on channels, in the order that they are made. -/
def calls (trace : List (Event interface (Scene R))) : List (ChannelId × Channel.Call) :=
  trace.filterMap called?

theorem called?_eq_none {id : LifecycleId} {e : Event interface (Scene R)}
    (h : idle id e.request) : called? e = none := by
  unfold called?
  rcases idle_cases h with heq | ⟨level, text, heq⟩ <;> rw [heq]

/-- **Two runs that agree**: the first with a subscriber, the second with a
consumer in its place. -/
structure Agree (id : LifecycleId)
    (front : History interface (Scene R) (List (Reply (Result Received))))
    (direct : History interface (Scene R) (List (Reply (Option (Result (Option Delivery)))))) :
    Prop where
  /-- But for looks and the log, the same is asked and answered, in the same
  order, with the same states before and after. -/
  events : Pauses (idle id) front.trace direct.trace
  calls : calls front.trace = calls direct.trace
  scene : front.machine.shared = direct.machine.shared
  clock : front.machine.clock = direct.machine.clock
  /-- A thread that has ended with the subscriber has ended with the consumer,
  and its replies are the same but for what receive calls convey. -/
  replies : ∀ i as, front.machine.result? i = some as →
    ∃ bs, direct.machine.result? i = some bs ∧ List.Forall₂ (Reply.Matches Conveys) as bs

/-- **What it means that a subscriber is a faithful front** of a consumer,
for which `config` has been asked. -/
structure Faithful (R : Reactions) (config : Config) (s : Subscriber) (h : Holder) (w : World)
    (duties : List (List Operation)) : Prop where
  /-- Whatever happens with the subscriber happens with the consumer, and goes
  on in step with it. -/
  forward : ∃ translate, InStep translate ∧ ∀ schedule, Agree s.consumer.lifecycle
    (runSubscriber R s w duties schedule)
    (runDirect R h config.receiveTimeout w duties (translate schedule))
  /-- Whatever happens with the consumer happens with the subscriber, and who
  has ended with the one has ended with the other. -/
  backward : ∃ translate, InStep translate ∧ ∀ schedule, Agree s.consumer.lifecycle
      (runSubscriber R s w duties (translate schedule))
      (runDirect R h config.receiveTimeout w duties schedule) ∧
    ∀ i, ((runDirect R h config.receiveTimeout w duties schedule).machine.result? i).isSome →
      ((runSubscriber R s w duties (translate schedule)).machine.result? i).isSome
  /-- The mode is the configured one, whatever the lifecycle and the queue have
  come to. -/
  mode : ∀ l q, ((Holder.subscriber s).view l q).mode = config.ackMode
  /-- A transactional subscriber that is given no transaction asks nothing at
  all. -/
  unattended : config.ackMode = .transactional →
    s.receive none = .done (.error (.transaction (.notActive "NONE")))
  /-- In the other modes a receive call has nothing to do with transactions,
  whatever it is given. -/
  untied : config.ackMode ≠ .transactional → ∀ t?, (s.receive t?).Asks Untied

/-- Threads that stand in front of each other at the start. -/
theorem start_fronts {id : LifecycleId} {Match : α → β → Prop} {face : Face α} {face' : Face β}
    (h : face.Fronts id Match face') (w : World) (duties : List (List Operation)) :
    (start R id face w duties).Fronts (idle id) (List.Forall₂ (Reply.Matches Match))
      (start R id face' w duties) := by
  refine .start _ (List.forall₂_map_left_iff.mpr (List.forall₂_map_right_iff.mpr ?_))
  refine List.forall₂_same.mpr fun ops _ => .inTurn ?_
  refine List.forall₂_map_left_iff.mpr (List.forall₂_map_right_iff.mpr ?_)
  exact List.forall₂_same.mpr fun o _ => o.fronts h

/-- Runs whose threads stand in front of each other agree. -/
theorem Agree.of_fronts {id : LifecycleId}
    {front : History interface (Scene R) (List (Reply (Result Received)))}
    {direct : History interface (Scene R) (List (Reply (Option (Result (Option Delivery)))))}
    (h : front.Fronts (idle id) (List.Forall₂ (Reply.Matches Conveys)) (Made id) direct) :
    Agree id front direct where
  events := h.pauses
  calls := h.pauses.filterMap_eq fun _ he => called?_eq_none he
  scene := h.machine.shared
  clock := h.machine.clock
  replies _ _ has := h.machine.result? has

/-- **A subscriber is a faithful front of the consumer that its configuration
selects**: for every configuration, whatever the threads do, whatever the
channels do when they are called, and whatever the objects are that are
there before. -/
theorem fronts_consumer (R : Reactions) (lifecycle : LifecycleId) (channel : ChannelId)
    (queue : QueueId) (config : Config) (w : World) (duties : List (List Operation)) :
    Faithful R config (.ofConfig lifecycle channel queue config)
      (.make (kind config.ackMode) lifecycle channel queue config) w duties := by
  have hstart := start_fronts (R := R) (Face.fronts_make lifecycle channel queue config) w duties
  have hmade : Made lifecycle (Scene.renewed lifecycle w : Scene R) := made_renewed lifecycle w
  refine ⟨?_, ?_, fun l q => Subscriber.ackMode_eq _, fun hmode => ?_,
    fun hmode t? => receive_asks hmode t?⟩
  · obtain ⟨translate, hstep, hfronts⟩ := hstart.forward (idles R lifecycle) hmade
    refine ⟨translate, hstep, fun schedule => ?_⟩
    rw [runDirect, consumer_make]
    exact .of_fronts (hfronts schedule)
  · obtain ⟨translate, hstep, hfronts⟩ := hstart.backward (idles R lifecycle) hmade
    refine ⟨translate, hstep, fun schedule => ?_⟩
    obtain ⟨hfront, habreast⟩ := hfronts schedule
    rw [runDirect, consumer_make]
    exact ⟨.of_fronts hfront, fun i => hfront.isSome_result? (habreast i)⟩
  · exact receive_of_unattended lifecycle channel queue hmode

end MessageIntake.Front
