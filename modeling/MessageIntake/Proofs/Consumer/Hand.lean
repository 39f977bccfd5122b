import MessageIntake.Consumer.Transactional
import MessageIntake.Proofs.Transaction.Duty

/-!
# A delivery in the hands of a thread

A dequeue under a transaction takes a delivery, makes a flag for it,
enlists it, and hands it back if the transaction is no longer active.
Whoever completes the transaction has the enlistments settle their
deliveries, each by a look at its flag and then a call. `Hand` is what a
thread has in hand on these ways, and `handling` is the discipline: which
request comes next with what in hand.

The dequeues follow it (`TransactionalConsumer.dequeue_follows` and its
kin), so does what an enlistment does with a notice, and so does
everybody who keeps away from deliveries (`Uses.handles`).
-/

namespace MessageIntake

open Client

/-- Whether a call takes an item off a queue. -/
def Queue.Call.takes {α : Type} : Queue.Call α → Bool
  | .dequeue | .tryDequeue | .dequeueTimeout _ | .dequeueNoWait _ => true
  | .enqueue _ | .waitForMessage _ | .close | .look => false

/-- Whether a call settles a delivery. -/
def Channel.Call.settles : Channel.Call → Bool
  | .acknowledge _ | .reject _ _ => true
  | .cancel _ => false

/-- The call that settles a delivery by a notice. -/
def Enlistment.call? (e : Enlistment) : Notice → Option Channel.Call
  | .commit => some (.acknowledge e.tag)
  | .rollback => some (.reject e.tag true)
  | .prepare | .inDoubt => none

/-- Requests that neither take, enlist nor settle a delivery and tell no
participant. -/
def Client.Request.Plain : Request → Prop
  | .under (.queue _ call) => call.takes = false
  | .under (.lifecycle _ _) => True
  | .under (.transaction _ part) => ∀ e, part ≠ .enlist (.delivery e)
  | .under .newFlag | .under (.settle _) => False
  | .outside (.channel _ call) => call.settles = false
  | .outside (.log _ _) => True
  | .notify _ _ => False

/-- **What a thread has in hand.** The channel is the one that its
deliveries are settled on. -/
inductive Hand where
  | empty
  /-- A dequeue that has not taken anything. -/
  | ready (channel : ChannelId)
  | taken (channel : ChannelId) (d : Delivery)
  | flagged (channel : ChannelId) (d : Delivery) (flag : EnlistmentId)
  /-- The delivery is enlisted. -/
  | kept (channel : ChannelId) (d : Delivery) (flag : EnlistmentId)
  /-- The transaction did not take the delivery. -/
  | refused (channel : ChannelId) (d : Delivery)
  /-- The delivery was handed back. -/
  | returned (channel : ChannelId) (d : Delivery)
  /-- An enlistment was told to settle its delivery. -/
  | told (e : Enlistment) (call : Channel.Call)
  /-- An enlistment has set its flag and is about to call. -/
  | settling (channel : ChannelId) (call : Channel.Call)

namespace Hand

/-- The item that the answer to a call gives. -/
def given {α : Type} : (call : Queue.Call α) → call.Answer → Option α
  | .dequeue, .ok item => some item
  | .tryDequeue, .ok item? => item?
  | .dequeueTimeout _, .ok item? => item?
  | _, _ => none

/-- **The request that comes next with a hand**, apart from plain ones. -/
inductive Acts (t : TransactionId) : Hand → Request → Prop
  | tell (p : Participant) (notice : Notice) : Acts t .empty (.notify p notice)
  | take {channel : ChannelId} {id : QueueId} {call : Queue.Call Delivery} :
    call.takes → (∀ d, call ≠ .dequeueNoWait d) → Acts t (.ready channel) (.under (.queue id call))
  | flag {channel : ChannelId} {d : Delivery} : Acts t (.taken channel d) (.under .newFlag)
  | enlist {channel : ChannelId} {d : Delivery} {flag : EnlistmentId} :
    Acts t (.flagged channel d flag)
      (.under (.transaction t (.enlist (.delivery ⟨flag, d.tag, channel⟩))))
  | handBack {channel : ChannelId} {d : Delivery} :
    Acts t (.refused channel d) (.outside (.channel channel (.reject d.tag true)))
  | settle {e : Enlistment} {call : Channel.Call} :
    Acts t (.told e call) (.under (.settle e.flag))
  | call {channel : ChannelId} {call : Channel.Call} :
    call.settles → Acts t (.settling channel call) (.outside (.channel channel call))

/-- What an answer leaves in hand. -/
def After : Hand → (r : Request) → r.Answer → Hand → Prop
  | .ready channel, .under (.queue _ call), a, g' =>
    g' = ((given call a).map (.taken channel)).getD (.ready channel)
  | .taken channel d, .under .newFlag, flag, g' => g' = .flagged channel d flag
  | .flagged channel d flag, .under (.transaction _ (.enlist (.delivery _))), .ok _, g' =>
    g' = .kept channel d flag
  | .flagged channel d _, .under (.transaction _ (.enlist (.delivery _))), .error _, g' =>
    g' = .refused channel d
  | .refused channel d, .outside (.channel _ (.reject _ _)), _, g' => g' = .returned channel d
  | .told e call, .under (.settle _), fresh, g' => fresh = true ∧ g' = .settling e.channel call
  | .settling _ _, .outside (.channel _ (.acknowledge _)), _, g' => g' = .empty
  | .settling _ _, .outside (.channel _ (.reject _ _)), _, g' => g' = .empty
  | g, _, _, g' => g' = g

end Hand

/-- **The discipline of deliveries** under the transaction `t`. -/
def handling (t : TransactionId) : Discipline Client.interface Hand where
  Permits g r := r.Plain ∨ g.Acts t r
  Leads := Hand.After

/-- A plain request changes nothing in hand. -/
theorem Client.Request.Plain.after_iff {r : Request} (h : r.Plain) (g g' : Hand) (a : r.Answer) :
    g.After r a g' ↔ g' = g := by
  match r with
  | .under (.queue id call) =>
    have hgiven : Hand.given call a = none := by
      cases call <;> simp_all [Request.Plain, Queue.Call.takes, Hand.given]
    cases g <;> simp [Hand.After, hgiven]
  | .under (.lifecycle _ _) | .outside (.log _ _) => cases g <;> rfl
  | .under (.transaction id part) =>
    have hne : ∀ e, part ≠ .enlist (.delivery e) := h
    cases g <;> cases part with
    | enlist p => cases p <;> simp_all [Hand.After]
    | _ => rfl
  | .outside (.channel id call) =>
    cases g <;> cases call <;> simp_all [Request.Plain, Channel.Call.settles, Hand.After]

section Follows

variable {t : TransactionId} {g : Hand} {α : Type} {Post : α → Hand → Prop}

/-- Going on after a plain request. -/
theorem ask_follows_of_plain {r : Request} {next : r.Answer → Action α} (h : r.Plain)
    (hnext : ∀ a, (next a).Follows (handling t) Post g) :
    (Program.ask (I := interface) r next).Follows (handling t) Post g := by
  refine ⟨.inl h, fun a g' hafter => ?_⟩
  rw [(h.after_iff g g' a).mp hafter]
  exact hnext a

/-- Going on after a program that comes and goes with nothing in hand. -/
theorem Program.Follows.bind_of_empty {β : Type} {p : Action β} {next : β → Action α}
    (hp : p.Follows (handling t) (fun _ g' => g' = .empty) .empty)
    (hnext : ∀ b, (next b).Follows (handling t) Post .empty) :
    (p.bind next).Follows (handling t) Post .empty :=
  hp.bind fun b _ hg => hg ▸ hnext b

/-! ## Dequeues -/

namespace TransactionalConsumer

variable (c : TransactionalConsumer)

/-- A consumer in transactional mode does nothing to a delivery that has
left the queue. -/
theorem inner_onDequeued (d : Delivery) : c.inner.onDequeued d = .done (.ok ()) := by
  simp [Consumer.onDequeued, c.transactional]

theorem inner_settleDequeued : c.inner.settleDequeued = fun d? => .done (.ok d?) := by
  funext d?
  cases d? with
  | none => rfl
  | some d => simp [Consumer.settleDequeued, Action.andThen, inner_onDequeued]

/-- How a dequeue for `channel` ends: with the delivery that is enlisted,
or without one. -/
def Ends (channel : ChannelId) : Result (Option Delivery) → Hand → Prop
  | .ok (some d), g => ∃ flag, g = .kept channel d flag
  | .ok none, g => g = .ready channel
  | .error _, g => g = .ready channel ∨ ∃ d, g = .returned channel d

/-- **A delivery that was taken is enlisted or handed back.** -/
theorem enlist_follows (d : Delivery) :
    (c.enlist t d).Follows (handling t)
      (fun r g' => match r with
        | .ok _ => ∃ flag, g' = .kept c.inner.channel d flag
        | .error _ => g' = .returned c.inner.channel d)
      (.taken c.inner.channel d) := by
  refine ⟨.inr .flag, fun flag g' hflag => ?_⟩
  obtain rfl : g' = .flagged c.inner.channel d flag := hflag
  refine ⟨.inr .enlist, fun answer g' hanswer => ?_⟩
  cases answer with
  | ok =>
    obtain rfl : g' = .kept c.inner.channel d flag := hanswer
    exact ask_follows_of_plain trivial fun _ => ⟨flag, rfl⟩
  | error e =>
    obtain rfl : g' = .refused c.inner.channel d := hanswer
    refine ask_follows_of_plain trivial fun _ => ⟨.inr .handBack, fun answer g' hback => ?_⟩
    obtain rfl : g' = .returned c.inner.channel d := hback
    cases answer <;> rfl

theorem enlistDequeued_follows (d? : Option Delivery) :
    (c.enlistDequeued t d?).Follows (handling t) (Ends c.inner.channel)
      ((d?.map (.taken c.inner.channel)).getD (.ready c.inner.channel)) := by
  cases d? with
  | none => exact rfl
  | some d =>
    exact Action.follows_andThen (c.enlist_follows d) (fun _ _ hg => hg)
      fun _ _ hg => .inr ⟨d, hg⟩

/-- The transaction is asked first. -/
theorem whenActive_follows {action : Action (Result (Option Delivery))} {channel : ChannelId}
    (h : action.Follows (handling t) (Ends channel) (.ready channel)) :
    (whenActive t action).Follows (handling t) (Ends channel) (.ready channel) := by
  refine ask_follows_of_plain nofun fun answer => ?_
  cases answer with
  | ok => exact h
  | error => exact .inl rfl

/-- A dequeue that may come without a delivery, by the call `poll` on the
queue. -/
theorem poll_follows {poll : Action (Result (Option Delivery))}
    (h : poll.Follows (handling t)
      (fun r g' => g' = ((r.toOption.join).map (.taken c.inner.channel)).getD
        (.ready c.inner.channel)) (.ready c.inner.channel)) :
    (whenActive t ((poll.andThen c.inner.settleDequeued).andThen (c.enlistDequeued t))).Follows
      (handling t) (Ends c.inner.channel) (.ready c.inner.channel) := by
  refine whenActive_follows ?_
  rw [inner_settleDequeued]
  have hsettled : (poll.andThen fun d? => .done (.ok d?)).Follows (handling t)
      (fun r g' => g' = ((r.toOption.join).map (.taken c.inner.channel)).getD
        (.ready c.inner.channel)) (.ready c.inner.channel) :=
    Action.follows_andThen h (fun _ _ hg => hg) fun _ _ hg => hg
  refine Action.follows_andThen hsettled (fun d? g' hg => ?_) fun _ _ hg => .inl hg
  subst hg
  exact c.enlistDequeued_follows d?

theorem dequeueTimeout_follows (timeout : Timeout) :
    (c.dequeueTimeout timeout t).Follows (handling t) (Ends c.inner.channel)
      (.ready c.inner.channel) := by
  refine c.poll_follows ⟨.inr (.take rfl (by simp)), fun answer g' hafter => ?_⟩
  cases answer <;> exact hafter

theorem dequeueNoWait_follows :
    (c.dequeueNoWait t).Follows (handling t) (Ends c.inner.channel) (.ready c.inner.channel) := by
  refine c.poll_follows ⟨.inr (.take rfl (by simp)), fun answer g' hafter => ?_⟩
  cases answer <;> exact hafter

theorem dequeue_follows :
    ((c.dequeue t).andThen fun d => return .ok (some d)).Follows (handling t)
      (Ends c.inner.channel) (.ready c.inner.channel) := by
  have hrest : ∀ d, (((c.inner.onDequeued d).andThen fun _ => return .ok d).andThen fun d =>
      (c.enlist t d).andThen fun _ => return .ok d).Follows (handling t)
      (fun r g' => Ends c.inner.channel (r.map some) g') (.taken c.inner.channel d) := by
    intro d
    rw [inner_onDequeued]
    show ((c.enlist t d).andThen fun _ => return .ok d).Follows _ _ _
    refine Action.follows_andThen (c.enlist_follows d) (fun _ _ hg => hg) fun _ _ hg => ?_
    exact .inr ⟨d, hg⟩
  have hdequeue : (c.dequeue t).Follows (handling t)
      (fun r g' => Ends c.inner.channel (r.map some) g') (.ready c.inner.channel) := by
    refine ask_follows_of_plain nofun fun answer => ?_
    cases answer with
    | error => exact .inl rfl
    | ok =>
      refine ⟨.inr (.take rfl (by simp)), fun answer g' hafter => ?_⟩
      obtain rfl : g' = _ := hafter
      cases answer with
      | ok d => exact hrest d
      | error => exact .inl rfl
  exact Action.follows_andThen hdequeue (fun _ _ hg => hg) fun _ _ hg => hg

end TransactionalConsumer

/-! ## Settling -/

/-- What is in hand when an enlistment is told. -/
def Hand.ofNotice (e : Enlistment) (notice : Notice) : Hand :=
  ((e.call? notice).map (.told e)).getD .empty

/-- An enlistment settles its delivery as it is told, and then the hand is
empty. -/
theorem Enlistment.settle_follows (e : Enlistment) {call : Channel.Call} (hcall : call.settles) :
    (e.settle call).Follows (handling t) (fun _ g' => g' = .empty) (.told e call) := by
  refine ⟨.inr .settle, fun fresh g' hafter => ?_⟩
  obtain ⟨rfl, rfl⟩ := hafter
  refine ⟨.inr (.call hcall), fun answer g' hafter => ?_⟩
  cases call with
  | acknowledge | reject => exact hafter
  | cancel => simp [Channel.Call.settles] at hcall

theorem Enlistment.notify_follows (e : Enlistment) (notice : Notice) :
    (e.notify notice).Follows (handling t) (fun _ g' => g' = .empty) (.ofNotice e notice) := by
  cases notice with
  | prepare => exact rfl
  | commit | rollback => exact e.settle_follows rfl
  | inDoubt => exact ask_follows_of_plain trivial fun _ => rfl

/-! ## Completing -/

namespace Transaction

/-- Telling participants leaves nothing in hand. -/
theorem tends_handling : Tends (handling t) t (fun _ g => g = .empty) .empty where
  begin := .inl nofun
  begun := fun _ _ hafter => hafter
  refused := fun _ _ hafter => hafter
  abandon := .inl nofun
  abandoned := fun _ _ hafter => hafter
  notify := by
    rintro - p - notice g rfl
    exact ⟨.inr (.tell p notice), fun _ _ hafter => hafter⟩
  log := by
    rintro - level text g rfl
    exact ⟨.inl trivial, fun _ _ hafter => hafter⟩
  finish := by
    rintro - outcome g rfl
    exact ⟨.inl nofun, fun _ _ hafter => hafter⟩

/-- **A completion has nothing in hand but what it tells enlistments.** -/
theorem Completion.handles (how : Completion) :
    (how.action t).Follows (handling t) (fun _ g' => g' = .empty) .empty :=
  (how.keeps tends_handling).mono fun _ _ ⟨_, hg⟩ => hg

theorem discard_handles :
    (discard t).Follows (handling t) (fun _ g' => g' = .empty) .empty :=
  (discard_keeps tends_handling).mono fun _ _ ⟨_, hg⟩ => hg

end Transaction

end Follows

/-- **Who uses a transaction and keeps away from deliveries** has nothing
in hand. -/
theorem Uses.handles {t : TransactionId} {Allowed : Request → Prop} {α : Type} {p : Action α}
    (h : Uses t Allowed p) (hplain : ∀ r, Allowed r → r.Plain) :
    p.Follows (handling t) (fun _ g' => g' = .empty) .empty := by
  induction h with
  | done => exact rfl
  | ask hr _ ih => exact ask_follows_of_plain (hplain _ hr) ih
  | complete how _ ih => exact how.handles.bind_of_empty ih
  | discard _ ih => exact Transaction.discard_handles.bind_of_empty ih

end MessageIntake
