import MessageIntake.Proofs.Consumer.Conduct
import MessageIntake.Proofs.Consumer.Source
import MessageIntake.Proofs.Machine.Walk

/-!
# Deliveries are acknowledged as they are taken

Threads use consumers in any mode, which may share queues: they take
deliveries by whatever call, iterate, wait, report what the broker says
and cancel. Under every schedule and whatever the channels answer, a
consumer that acknowledges automatically makes one call for each
delivery that is taken through it, in this order, before the call that
took it returns, and this call returns the delivery if and only if the
acknowledgment succeeded. Other consumers make no such call (`acks_once`).

An iteration takes the error of a closed queue for its end, whoever
answers it. So there is one failure that is not returned
(`hiddenByIteration`, `not_acksOnce`).

All of it is read off the walks of single threads: `Fetches` is the common
form of the calls that take a delivery, and `Fetches.deals` follows one
through.
-/

namespace MessageIntake.Acknowledgment

open Client Settlement Source

variable {S : Surroundings} {c : Consumer}

/-! ## What is asked of a consumer -/

/-- What a thread asks of a consumer. -/
inductive Use where
  /-- The broker reports. -/
  | report (callback : Callback)
  | dequeue (pace : Pace)
  /-- The next step of an iteration over deliveries. -/
  | next (it : Queue.Iterator)
  | waitForMessage (timeout : Timeout)
  | cancel

/-- What comes of it. -/
inductive Reply where
  | returned (result : Result Unit)
  | dequeued (result : Result (Option Delivery))
  | yielded (it : Queue.Iterator) (item : Option (Result Delivery))
  | waited (found : Bool)

/-- The program of a use. -/
def Use.action (c : Consumer) : Use → Action Reply
  | .report callback => do return .returned (← callback.action c)
  | .dequeue .waiting => do return .dequeued ((← c.dequeue).map some)
  | .dequeue (.within timeout) => do return .dequeued (← c.dequeueTimeout timeout)
  | .dequeue .atOnce => do return .dequeued (← c.dequeueNoWait)
  | .next it => do
    let (it, item) ← c.nextDelivery it
    return .yielded it item
  | .waitForMessage timeout => do return .waited (← c.waitForMessage timeout)
  | .cancel => do return .returned (← c.cancel)

namespace Reply

/-- The delivery that is returned. -/
def delivery? : Reply → Option Delivery
  | dequeued (.ok d?) => d?
  | yielded _ (some (.ok d)) => some d
  | _ => none

/-- The error that is returned. -/
def error? : Reply → Option Error
  | returned (.error e) | dequeued (.error e) | yielded _ (some (.error e)) => some e
  | _ => none

end Reply

/-- A thread that uses a consumer. -/
structure Reader where
  consumer : Consumer
  uses : List Use

/-- Its program: one use after another, with the replies. -/
def Reader.action (reader : Reader) : Action (List Reply) :=
  .inTurn (reader.uses.map (Use.action reader.consumer))

/-! ## What is read off a run -/

/-- A call that settles a delivery, with its answer. -/
structure Sent where
  channel : ChannelId
  call : Channel.Call
  answer : Result Unit

def Sent.settlement (x : Sent) : ChannelId × Channel.Call := (x.channel, x.call)

/-- The error that a call is answered with. -/
def Sent.error? (x : Sent) : Option Error :=
  match x.answer with
  | .ok _ => none
  | .error e => some e

/-- The call to settle a delivery that an event makes. -/
def sent? : Event interface (Setting S) → Option Sent
  | ⟨_, _, Request.outside (.channel id call), some answer, _⟩ =>
    if call.settles then some ⟨id, call, answer⟩ else none
  | _ => none

/-- The call that acknowledges a delivery for a consumer. -/
def acknowledgment (c : Consumer) (d : Delivery) : ChannelId × Channel.Call :=
  (c.channel, .acknowledge d.tag)

/-! ## One call -/

/-- **How a call deals with what it takes**, by its events and, once it has
returned, its reply. An error that is `Hidden` is not returned. -/
structure Deals (Hidden : Use → Error → Prop) (c : Consumer) (use : Use) (events : Trace S)
    (reply? : Option Reply) : Prop where
  /-- It takes one delivery at most, off the front of the queue. -/
  one : (events.filterMap taken?).length ≤ 1
  front : ∀ e ∈ events, ∀ d, taken? e = some d →
    (e.before.world.queues.get c.queue).items =
      d :: (e.after.world.queues.get c.queue).items
  /-- A consumer that acknowledges automatically sends one acknowledgment for
  what is taken and nothing else, before the call returns. -/
  sends : c.mode = .auto →
    (events.filterMap sent?).map Sent.settlement =
        (events.filterMap taken?).map (acknowledgment c) ∨
      reply? = none ∧ events.filterMap sent? = []
  /-- The call returns a delivery if and only if it took it and this was
  answered with success. -/
  returns : c.mode = .auto → ∀ r, reply? = some r → ∀ d, r.delivery? = some d ↔
    events.filterMap taken? = [d] ∧
      events.filterMap sent? = [⟨c.channel, .acknowledge d.tag, .ok ()⟩]
  /-- It returns the error that this was answered with. -/
  fails : c.mode = .auto → ∀ r, reply? = some r → ∀ x ∈ events.filterMap sent?, ∀ e,
    x.error? = some e → ¬ Hidden use e → r.error? = some e
  /-- A hidden error ends an iteration. -/
  hides : c.mode = .auto → ∀ r, reply? = some r → ∀ x ∈ events.filterMap sent?, ∀ e,
    x.error? = some e → Hidden use e → r = .yielded ⟨true⟩ none
  /-- A consumer in another mode settles nothing and returns what is taken. -/
  leaves : c.mode ≠ .auto → events.filterMap sent? = [] ∧
    ∀ r, reply? = some r → ∀ d, r.delivery? = some d ↔ events.filterMap taken? = [d]

section Events

variable {i : Nat} {visit : Visit} {s : Setting S} {id : QueueId} {call : Queue.Call Delivery}

/-- What an answered pass takes is what the answer gives. -/
theorem taken?_eq_given {a : call.Answer} (hcall : ∀ d, call ≠ .dequeueNoWait d)
    (h : (Server.serve (I := interface) visit s (.under (.queue id call))).answer? = some a) :
    taken? (Event.of (I := interface) i visit s (.under (.queue id call))) =
      Hand.given call a := by
  rw [taken?_of_queue, Queue.event_of, ← (serve_queue visit s id call).1, h]
  cases call with
  | dequeueNoWait d => exact absurd rfl (hcall d)
  | dequeue | tryDequeue | dequeueTimeout => cases a <;> rfl
  | enqueue | waitForMessage | close | look => rfl

/-- A pass that is not answered takes nothing. -/
theorem taken?_of_unanswered {e : Event interface (Setting S)}
    (h : Unanswered (I := interface) (.under (.queue id call)) e) :
    taken? e = none ∧ sent? e = none := by
  obtain ⟨i, visit, s, rfl, hnone⟩ := h
  refine ⟨?_, rfl⟩
  rw [taken?_of_queue, Queue.event_of, ← (serve_queue visit s id call).1, hnone]
  cases call <;> rfl

/-- What is taken was at the front of the queue. -/
theorem items_of_taken {d : Delivery}
    (h : taken? (Event.of (I := interface) i visit s (.under (.queue id call))) = some d) :
    (s.world.queues.get id).items = d ::
      ((Server.serve (I := interface) visit s
        (.under (.queue id call))).state.world.queues.get id).items := by
  rw [taken?_of_queue] at h
  have hpass := Queue.conserves i visit (s.world.queues.get id) call
  have haccepted : Queue.accepted? (.of i visit (s.world.queues.get id) call) = none := by
    have htakes := Queue.takes_of_handedOut h
    rw [Queue.event_of]
    cases call with
    | enqueue => cases htakes
    | _ => rfl
  rw [h, haccepted, Queue.event_of] at hpass
  rw [(serve_queue visit s id call).2, Store.get_set_self]
  simpa using hpass.symm

/-- A plain request takes nothing and settles nothing. -/
theorem quiet_of_plain {e : Event interface (Setting S)} (h : Request.Plain e.request) :
    taken? e = none ∧ sent? e = none := by
  obtain ⟨i, s, r, answer, s'⟩ := e
  refine ⟨(silent_of_plain (t := 0) h s s' answer).taken, ?_⟩
  match r, answer with
  | .outside (.channel id call), some answer =>
    have hcall : call.settles = false := h
    simp [sent?, hcall]
  | .outside (.channel _ _), none => rfl
  | .under _, _ | .outside (.log _ _), _ | .notify _ _, _ => rfl

/-- No program runs for a plain request. -/
theorem plain_ne_runs (r : Request) (hr : r.Plain) (visit : Visit) (s s' : Setting S)
    (p : Action r.Answer) : Server.serve (I := interface) visit s r ≠ .runs s' p :=
  Request.ne_runs_of (fun _ _ hr => hr) r hr visit s s' p

end Events

theorem filterMap_eq_nil {κ : Type} {read : Event interface (Setting S) → Option κ}
    {events : Trace S} (h : ∀ e ∈ events, read e = none) : events.filterMap read = [] :=
  List.filterMap_eq_nil_iff.mpr h

section Call

variable {Hidden : Use → Error → Prop} {use : Use} {events : Trace S}
variable {call : Queue.Call Delivery} {next : call.Answer → Action Reply}
variable {reply : Result Delivery → Reply}

/-- A call that takes nothing, or has not taken anything yet. -/
theorem Deals.quiet {reply? : Option Reply}
    (hevents : ∀ e ∈ events, taken? e = none ∧ sent? e = none)
    (hreply : ∀ r, reply? = some r → r.delivery? = none) :
    Deals Hidden c use events reply? := by
  have htaken : events.filterMap taken? = [] := filterMap_eq_nil fun e he => (hevents e he).1
  have hsent : events.filterMap sent? = [] := filterMap_eq_nil fun e he => (hevents e he).2
  have hnone : ∀ r, reply? = some r → ∀ d, r.delivery? ≠ some d := by
    intro r hr d hd
    rw [hreply r hr] at hd
    cases hd
  refine ⟨by simp [htaken], fun e he d hd => ?_, fun _ => .inl (by simp [htaken, hsent]),
    fun _ r hr d => by simp [htaken, hnone r hr d], by simp [hsent], by simp [hsent],
    fun _ => ⟨hsent, fun r hr d => by simp [htaken, hnone r hr d]⟩⟩
  rw [(hevents e he).1] at hd
  cases hd

/-- Programs of plain requests take nothing. -/
theorem Deals.of_asks {p q : Action Reply} (hp : p.Asks Request.Plain) (h : Walk p events q)
    (hreply : ∀ r, q.result? = some r → r.delivery? = none) :
    Deals Hidden c use events q.result? :=
  .quiet (fun e he => quiet_of_plain (h.allowed plain_ne_runs hp e he)) hreply

/-- **A call that takes a delivery**: it asks the queue, does to the
delivery what the mode says, and replies. -/
structure Fetches (Hidden : Use → Error → Prop) (c : Consumer) (use : Use)
    (call : Queue.Call Delivery) (next : call.Answer → Action Reply)
    (reply : Result Delivery → Reply) : Prop where
  call_ne : ∀ d, call ≠ .dequeueNoWait d
  of_none : ∀ a, Hand.given call a = none → ∃ r, next a = .done r ∧ r.delivery? = none
  of_some : ∀ a d, Hand.given call a = some d →
    next a = (c.onDequeued d).bind fun answer => .done (reply (answer.map fun _ => d))
  reply_ok : ∀ d, (reply (.ok d)).delivery? = some d
  reply_error : ∀ e, (reply (.error e)).delivery? = none
  returned : ∀ e, ¬ Hidden use e → (reply (.error e)).error? = some e
  hidden : ∀ e, Hidden use e → reply (.error e) = .yielded ⟨true⟩ none

/-- What comes after a delivery was taken: nothing is taken any more, and
by the end it is settled as the mode says. -/
theorem onDequeued_walk {β : Type} {d : Delivery} {reply : Result Unit → β} {q : Action β}
    (h : Walk ((c.onDequeued d).bind fun answer => .done (reply answer)) events q) :
    events.filterMap taken? = [] ∧
      if c.mode = .auto then
        (events.filterMap sent? = [] ∧ q.result? = none) ∨
          ∃ answer, events.filterMap sent? = [⟨c.channel, .acknowledge d.tag, answer⟩] ∧
            q.result? = some (reply answer)
      else events.filterMap sent? = [] ∧ q.result? = some (reply (.ok ())) := by
  unfold Consumer.onDequeued at h
  cases hmode : c.mode with
  | auto =>
    rw [hmode] at h
    refine (if_pos (c := AckMode.auto = .auto) rfl).symm ▸ ?_
    rcases h.of_prompt_ask (fun _ _ => rfl) with ⟨rfl, rfl⟩ | ⟨i, visit, s, a, later, rfl, -, h⟩
    · exact ⟨rfl, .inl ⟨rfl, rfl⟩⟩
    rcases h.of_prompt_ask (fun _ _ => rfl) with ⟨rfl, rfl⟩ |
      ⟨j, visit', s', answer, rest, rfl, hanswer, h⟩
    · exact ⟨rfl, .inl ⟨rfl, rfl⟩⟩
    obtain ⟨rfl, rfl⟩ := h.of_done
    refine ⟨rfl, .inr ⟨answer, ?_, rfl⟩⟩
    simp only [Event.of, hanswer, List.filterMap_cons, sent?, Channel.Call.settles, if_true,
      List.filterMap_nil]
  | manual | transactional =>
    rw [hmode] at h
    obtain ⟨rfl, rfl⟩ := h.of_done
    exact ⟨rfl, rfl, rfl⟩

/-- A call that has taken a delivery deals with it if it goes on so. -/
theorem Fetches.deals_of_taken (f : Fetches Hidden c use call next reply) {d : Delivery}
    {reply? : Option Reply}
    (htaken : events.filterMap taken? = [d])
    (hfront : ∀ e ∈ events, ∀ d, taken? e = some d →
      (e.before.world.queues.get c.queue).items =
        d :: (e.after.world.queues.get c.queue).items)
    (hmode : if c.mode = .auto then
        (events.filterMap sent? = [] ∧ reply? = none) ∨
          ∃ answer, events.filterMap sent? = [⟨c.channel, .acknowledge d.tag, answer⟩] ∧
            reply? = some (reply (answer.map fun _ => d))
      else events.filterMap sent? = [] ∧ reply? = some (reply (.ok d))) :
    Deals Hidden c use events reply? := by
  have hone : (events.filterMap taken?).length ≤ 1 := by simp [htaken]
  by_cases hauto : c.mode = .auto
  · rw [if_pos hauto] at hmode
    rcases hmode with ⟨hsent, rfl⟩ | ⟨answer, hsent, rfl⟩
    · have hwaiting : ∀ r : Reply, none ≠ some r := fun r => nofun
      exact ⟨hone, hfront, fun _ => .inr ⟨rfl, hsent⟩, fun _ r hr => absurd hr (hwaiting r),
        fun _ r hr => absurd hr (hwaiting r), fun _ r hr => absurd hr (hwaiting r),
        fun hne => absurd hauto hne⟩
    · have hsends : (events.filterMap sent?).map Sent.settlement =
          (events.filterMap taken?).map (acknowledgment c) := by
        rw [hsent, htaken]
        rfl
      have hanswer : ∀ x ∈ events.filterMap sent?, ∀ e, x.error? = some e → answer = .error e := by
        intro x hx e herror
        rw [hsent, List.mem_singleton] at hx
        subst hx
        cases answer with
        | ok => cases herror
        | error e' => rw [Option.some_inj.mp herror]
      refine ⟨hone, hfront, fun _ => .inl hsends, ?_, ?_, ?_, fun hne => absurd hauto hne⟩
      · rintro - r hr d'
        obtain rfl := Option.some_inj.mp hr
        rw [htaken, hsent]
        cases answer with
        | ok => simp +contextual [Except.map, f.reply_ok]
        | error e => simp [Except.map, f.reply_error]
      · rintro - r hr x hx e herror hhidden
        obtain rfl := Option.some_inj.mp hr
        obtain rfl := hanswer x hx e herror
        exact f.returned e hhidden
      · rintro - r hr x hx e herror hhidden
        obtain rfl := Option.some_inj.mp hr
        obtain rfl := hanswer x hx e herror
        exact f.hidden e hhidden
  · rw [if_neg hauto] at hmode
    obtain ⟨hsent, rfl⟩ := hmode
    refine ⟨hone, hfront, fun h => absurd h hauto, fun h => absurd h hauto,
      fun h => absurd h hauto, fun h => absurd h hauto, fun _ => ⟨hsent, fun r hr d' => ?_⟩⟩
    obtain rfl := Option.some_inj.mp hr
    simp [htaken, f.reply_ok]

/-- **A call that takes a delivery deals with it.** -/
theorem Fetches.deals (f : Fetches Hidden c use call next reply) {q : Action Reply}
    (h : Walk (.ask (I := interface) (.under (.queue c.queue call)) next) events q) :
    Deals Hidden c use events q.result? := by
  have hruns : ∀ visit (s s' : Setting S) p, Server.serve (I := interface) visit s
      (.under (.queue c.queue call)) ≠ .runs s' p :=
    Request.Elsewhere.serve_ne_runs (t := 0) (r := .under (.queue c.queue call)) trivial
  -- it may sleep any number of times before the queue answers
  rcases h.of_ask hruns with ⟨rfl, hwaits⟩ |
    ⟨asleep, i, visit, s, a, later, rfl, hasleep, ha, hlater⟩
  · exact .quiet (fun e he => taken?_of_unanswered (hwaits e he)) fun r hr => by cases hr
  have hgiven := taken?_eq_given (i := i) f.call_ne ha
  cases hd : Hand.given call a with
  | none =>
    obtain ⟨r, hr, hnone⟩ := f.of_none a hd
    rw [hr] at hlater
    obtain ⟨rfl, rfl⟩ := hlater.of_done
    refine .quiet (fun e he => ?_) fun r' hr' => Option.some_inj.mp hr' ▸ hnone
    rcases List.mem_append.mp he with he | he
    · exact taken?_of_unanswered (hasleep e he)
    · rw [List.mem_singleton.mp he]
      exact ⟨hgiven.trans hd, rfl⟩
  | some d =>
    rw [hd] at hgiven
    rw [f.of_some a d hd] at hlater
    obtain ⟨hnothing, hmode⟩ := onDequeued_walk hlater
    have hearlier : asleep.filterMap taken? = [] ∧ asleep.filterMap sent? = [] :=
      ⟨filterMap_eq_nil fun e he => (taken?_of_unanswered (hasleep e he)).1,
        filterMap_eq_nil fun e he => (taken?_of_unanswered (hasleep e he)).2⟩
    refine f.deals_of_taken (d := d) ?_ (fun e he d' hd' => ?_) ?_
    · simp [hearlier.1, hgiven, hnothing]
    · rcases List.mem_append.mp he with he | he
      · rw [(taken?_of_unanswered (hasleep e he)).1] at hd'
        cases hd'
      · rcases List.mem_cons.mp he with rfl | he
        · exact items_of_taken hd'
        · rw [List.filterMap_eq_nil_iff.mp hnothing e he] at hd'
          cases hd'
    · have hsent : (asleep ++ .of i visit s (.under (.queue c.queue call)) :: later).filterMap
          sent? = later.filterMap sent? := by
        rw [List.filterMap_append, hearlier.2, List.nil_append]
        exact List.filterMap_cons_none rfl
      rw [hsent]
      exact hmode

end Call

/-! ## Every use -/

/-- The errors that an iteration takes for its end. -/
def hiddenByIteration : Use → Error → Prop
  | .next _, e => e = .queueClosed
  | _, _ => False

/-- To go on with a fixed value after success. -/
theorem andThen_bind {α β γ : Type} (action : Action (Result α)) (b : β)
    (f : Result β → Action γ) :
    (action.andThen fun _ => .done (.ok b)).bind f =
      action.bind fun answer => f (answer.map fun _ => b) := by
  rw [Action.andThen, Program.bind_eq, Program.bind_assoc]
  congr 1
  funext answer
  cases answer <;> rfl

/-- What a call that may come back without a delivery does with the answer
of the queue. -/
def poll (c : Consumer) (a : Result (Option Delivery)) : Action Reply := do
  return .dequeued (← Action.andThen (.done a) c.settleDequeued)

theorem poll_of_none {a : Result (Option Delivery)} (h : a.toOption.join = none) :
    ∃ r, poll c a = .done r ∧ r.delivery? = none := by
  cases a with
  | ok d? =>
    obtain rfl : d? = none := h
    exact ⟨_, rfl, rfl⟩
  | error e => exact ⟨_, rfl, rfl⟩

theorem poll_of_some {a : Result (Option Delivery)} {d : Delivery}
    (h : a.toOption.join = some d) :
    poll c a =
      (c.onDequeued d).bind fun answer => .done (.dequeued ((answer.map fun _ => d).map some)) := by
  cases a with
  | ok d? =>
    obtain rfl : d? = some d := h
    refine (andThen_bind (c.onDequeued d) (some d) fun r =>
      (.done (.dequeued r) : Action Reply)).trans ?_
    congr 1
    funext answer
    cases answer <;> rfl
  | error e => cases h

/-- Dequeues of any pace are such calls. -/
theorem fetches_dequeue {pace : Pace} {call : Queue.Call Delivery}
    {next : call.Answer → Action Reply} (call_ne : ∀ d, call ≠ .dequeueNoWait d)
    (of_none : ∀ a, Hand.given call a = none → ∃ r, next a = .done r ∧ r.delivery? = none)
    (of_some : ∀ a d, Hand.given call a = some d → next a =
      (c.onDequeued d).bind fun answer => .done (.dequeued ((answer.map fun _ => d).map some))) :
    Fetches hiddenByIteration c (.dequeue pace) call next fun r => .dequeued (r.map some) where
  call_ne := call_ne
  of_none := of_none
  of_some := of_some
  reply_ok _ := rfl
  reply_error _ := rfl
  returned _ _ := rfl
  hidden _ h := h.elim

/-- A dequeue of any pace deals with what it takes. -/
theorem deals_dequeue {pace : Pace} {events : Trace S} {q : Action Reply}
    (h : Walk (Use.action c (.dequeue pace)) events q) :
    Deals hiddenByIteration c (.dequeue pace) events q.result? := by
  cases pace with
  | waiting =>
    refine (fetches_dequeue (by simp) (fun a ha => ?_) fun a d ha => ?_).deals h
    · cases a with
      | ok d => cases ha
      | error e => exact ⟨_, rfl, rfl⟩
    · cases a with
      | ok d' =>
        obtain rfl : d' = d := Option.some_inj.mp ha
        exact andThen_bind (c.onDequeued d') d' fun r =>
          (.done (.dequeued (r.map some)) : Action Reply)
      | error e => cases ha
  | within timeout =>
    have hgiven : ∀ a : Result (Option Delivery),
        Hand.given (.dequeueTimeout timeout) a = a.toOption.join := fun a => by cases a <;> rfl
    exact (fetches_dequeue (by simp) (fun a ha => poll_of_none (hgiven a ▸ ha))
      fun a d ha => poll_of_some (hgiven a ▸ ha)).deals h
  | atOnce =>
    have hgiven : ∀ a : Result (Option Delivery),
        Hand.given .tryDequeue a = a.toOption.join := fun a => by cases a <;> rfl
    exact (fetches_dequeue (by simp) (fun a ha => poll_of_none (hgiven a ▸ ha))
      fun a d ha => poll_of_some (hgiven a ▸ ha)).deals h

/-- So does a step of an iteration; it hides that the queue is closed. -/
theorem deals_next {it : Queue.Iterator} {events : Trace S} {q : Action Reply}
    (h : Walk (Use.action c (.next it)) events q) :
    Deals hiddenByIteration c (.next it) events q.result? := by
  obtain ⟨finished⟩ := it
  cases finished with
  | true =>
    obtain ⟨rfl, rfl⟩ := h.of_done
    refine .quiet (by simp) fun r hr => ?_
    obtain rfl := Option.some_inj.mp hr
    rfl
  | false =>
    refine Fetches.deals (?_ : Fetches hiddenByIteration c (.next ⟨false⟩) .dequeue _ fun r =>
      .yielded (Consumer.taken ⟨false⟩ r).1 (Consumer.taken ⟨false⟩ r).2) h
    refine ⟨by simp, fun a ha => ?_, fun a d ha => ?_, fun _ => rfl, fun e => ?_, fun e he => ?_,
      fun e he => ?_⟩
    · cases a with
      | ok d => cases ha
      | error e => cases e <;> exact ⟨_, rfl, rfl⟩
    · cases a with
      | ok d' =>
        obtain rfl : d' = d := Option.some_inj.mp ha
        refine (Program.bind_assoc _ _ _).trans ((andThen_bind (c.onDequeued d') d' _).trans ?_)
        rfl
      | error e => cases ha
    · cases e <;> rfl
    · cases e with
      | queueClosed => exact absurd rfl he
      | _ => rfl
    · obtain rfl : e = .queueClosed := he
      rfl

/-- To end a consumer takes nothing and settles nothing. -/
theorem onCancel_asks (c : Consumer) : c.onCancel.Asks Request.Plain := by
  refine .ask trivial fun ⟨previous, tag⟩ => ?_
  dsimp only [Program.done_bind]
  split
  · exact .done _
  · exact .ask rfl fun _ => .ask rfl fun _ => .ask trivial fun _ => .done _

theorem cancel_asks (c : Consumer) : c.cancel.Asks Request.Plain := by
  refine .ask trivial fun tag? => ?_
  cases tag? with
  | none => exact (onCancel_asks c).bind fun _ => .done _
  | some tag => exact .ask rfl fun _ => (onCancel_asks c).bind fun _ => .done _

/-- So do the callbacks. -/
theorem callback_asks (c : Consumer) (callback : Callback) :
    (callback.action c).Asks Request.Plain := by
  cases callback with
  | consumeOk tag =>
    refine .ask trivial fun answer => ?_
    cases answer with
    | ok => exact .ask trivial fun _ => .done _
    | error => exact .done _
  | deliver d =>
    refine .ask trivial fun _ => .ask rfl fun answer => ?_
    cases answer with
    | ok => exact .done _
    | error => exact .ask trivial fun _ => .done _
  | cancelByBroker tag | cancelConfirmed tag =>
    exact .ask trivial fun _ => (onCancel_asks c).bind fun _ => .done _
  | shutdown reason =>
    have hshutdown : (c.shutdown reason).Asks Request.Plain := by
      refine .ask trivial fun counts => ?_
      cases counts with
      | false => exact .done _
      | true =>
        have hend : ∀ level text,
            ((log level text).bind fun _ => c.onCancel).Asks Request.Plain :=
          fun level text => .ask trivial fun _ => onCancel_asks c
        dsimp only [Program.done_bind]
        by_cases hclean : reason.isClean <;> simp only [hclean] <;> exact hend _ _
    exact hshutdown.bind fun _ => .done _

/-- **Every use deals with what it takes.** -/
theorem Use.deals (use : Use) {events : Trace S} {q : Action Reply}
    (h : Walk (use.action c) events q) : Deals hiddenByIteration c use events q.result? := by
  cases use with
  | dequeue pace => exact deals_dequeue h
  | next it => exact deals_next h
  | report callback =>
    refine .of_asks ((callback_asks c callback).bind fun _ => .done _) h fun r hr => ?_
    obtain ⟨result, rfl⟩ := h.exists_of_bind_done hr
    rfl
  | waitForMessage timeout =>
    have hasks : (Use.action c (.waitForMessage timeout)).Asks Request.Plain :=
      .ask rfl fun _ => .done _
    refine .of_asks hasks h fun r hr => ?_
    obtain ⟨found, rfl⟩ := Walk.exists_of_bind_done (p := c.waitForMessage timeout) h hr
    rfl
  | cancel =>
    refine .of_asks ((cancel_asks c).bind fun _ => .done _) h fun r hr => ?_
    obtain ⟨result, rfl⟩ := h.exists_of_bind_done hr
    rfl

/-! ## Every run -/

/-- A run of threads that use consumers. -/
def runReaders (S : Surroundings) (w : World) (readers : List Reader)
    (schedule : List (Machine.Move interface (List Reply))) :
    History interface (Setting S) (List Reply) :=
  (Machine.start ⟨w, 0⟩ (readers.map Reader.action)).run schedule

/-- The events of the threads that use the consumer `c`. -/
def eventsAt (readers : List Reader) (c : Consumer) (trace : Trace S) : Trace S :=
  trace.filter fun e => (readers[e.thread]?.map Reader.consumer) = some c

/-- **What it means that every delivery is acknowledged as it is taken** in
a run of readers, and that the errors of acknowledgments are returned
unless they are `Hidden`. -/
structure AcksOnce (Hidden : Use → Error → Prop) (readers : List Reader)
    (h : History interface (Setting S) (List Reply)) : Prop where
  /-- The events of a thread are those of its uses, one after another, and
  every use deals with what it takes. -/
  deals : ∀ i reader, readers[i]? = some reader → ∃ replies,
    InTurn (Use.action reader.consumer) (Deals Hidden reader.consumer) reader.uses
        (eventsOf i h.trace) replies ∧
      ∀ all, h.machine.result? i = some all →
        all = replies ∧ replies.length = reader.uses.length
  /-- A thread acknowledges what it takes in the order in which it takes it;
  at every point one acknowledgment at most is still to be sent, and none
  once the thread has returned. -/
  inOrder : ∀ i reader, readers[i]? = some reader → reader.consumer.mode = .auto →
    ∃ pending : List (ChannelId × Channel.Call), pending.length ≤ 1 ∧
      ((eventsOf i h.trace).filterMap taken?).map (acknowledgment reader.consumer) =
        ((eventsOf i h.trace).filterMap sent?).map Sent.settlement ++ pending ∧
      ((h.machine.result? i).isSome → pending = [])
  /-- Whatever is sent for a consumer acknowledges what was taken through it,
  once each; and all of it is acknowledged when its threads have
  returned. -/
  once : ∀ c : Consumer, c.mode = .auto →
    (((eventsAt readers c h.trace).filterMap sent?).map Sent.settlement).Subperm
        (((eventsAt readers c h.trace).filterMap taken?).map (acknowledgment c)) ∧
      ((∀ i reader, readers[i]? = some reader → reader.consumer = c →
          (h.machine.result? i).isSome) →
        (((eventsAt readers c h.trace).filterMap sent?).map Sent.settlement).Perm
          (((eventsAt readers c h.trace).filterMap taken?).map (acknowledgment c)))
  /-- Nothing is sent for consumers in other modes, or by anybody else. -/
  silent : ∀ e ∈ h.trace, (sent? e).isSome → ∃ reader, readers[e.thread]? = some reader ∧
    reader.consumer.mode = .auto

section Turns

variable {Hidden : Use → Error → Prop} {uses : List Use} {events : Trace S} {replies : List Reply}

/-- One use after another acknowledges in order. -/
theorem inOrder_of_turns (hauto : c.mode = .auto)
    (h : InTurn (Use.action c) (Deals Hidden c) uses events replies) :
    ∃ pending : List (ChannelId × Channel.Call), pending.length ≤ 1 ∧
      (events.filterMap taken?).map (acknowledgment c) =
        (events.filterMap sent?).map Sent.settlement ++ pending ∧
      (replies.length = uses.length → pending = []) := by
  induction h with
  | waits uses => exact ⟨[], Nat.zero_le _, rfl, fun _ => rfl⟩
  | @underWay use uses events q _ _ hdeals =>
    rcases hdeals.sends hauto with hsends | ⟨-, hsent⟩
    · exact ⟨[], Nat.zero_le _, by rw [hsends, List.append_nil], fun _ => rfl⟩
    · refine ⟨(events.filterMap taken?).map (acknowledgment c), ?_, by rw [hsent]; rfl, nofun⟩
      simpa using hdeals.one
  | @returns use uses events later reply replies _ hdeals _ ih =>
    obtain ⟨pending, hlength, horder, hall⟩ := ih
    rcases hdeals.sends hauto with hsends | ⟨hnone, -⟩
    · refine ⟨pending, hlength, ?_, fun hreplies => hall (by simpa using hreplies)⟩
      simp only [List.filterMap_append, List.map_append, ← hsends, horder, List.append_assoc]
    · cases hnone

/-- A consumer in another mode settles nothing. -/
theorem sent_of_turns (hmode : c.mode ≠ .auto)
    (h : InTurn (Use.action c) (Deals Hidden c) uses events replies) :
    events.filterMap sent? = [] := by
  induction h with
  | waits uses => rfl
  | underWay _ _ hdeals => exact (hdeals.leaves hmode).1
  | returns _ hdeals _ ih =>
    rw [List.filterMap_append, (hdeals.leaves hmode).1, ih, List.append_nil]

/-- When all uses have returned, an error that nobody hides was returned by
one of them. -/
theorem exists_error_of_turns (hauto : c.mode = .auto)
    (h : InTurn (Use.action c) (Deals (fun _ _ => False) c) uses events replies)
    (hall : replies.length = uses.length) {x : Sent} (hx : x ∈ events.filterMap sent?) {e : Error}
    (herror : x.error? = some e) : ∃ r ∈ replies, r.error? = some e := by
  induction h with
  | waits uses => cases hx
  | underWay => cases hall
  | @returns use uses events later reply replies _ hdeals _ ih =>
    rw [List.filterMap_append, List.mem_append] at hx
    rcases hx with hx | hx
    · exact ⟨reply, List.mem_cons_self, hdeals.fails hauto reply rfl x hx e herror id⟩
    · obtain ⟨r, hr, herror⟩ := ih (by simpa using hall) hx
      exact ⟨r, List.mem_cons_of_mem _ hr, herror⟩

end Turns

section Run

variable {w : World} {readers : List Reader} {i : Nat} {reader : Reader}

/-- The events of a thread are those of its uses. -/
theorem turns_of_reader (schedule : List (Machine.Move interface (List Reply)))
    (hi : readers[i]? = some reader) : ∃ replies,
      InTurn (Use.action reader.consumer) (Deals hiddenByIteration reader.consumer) reader.uses
          (eventsOf i (runReaders S w readers schedule).trace) replies ∧
        ∀ all, (runReaders S w readers schedule).machine.result? i = some all →
          all = replies ∧ replies.length = reader.uses.length := by
  have hprogram : (Machine.start (⟨w, 0⟩ : Setting S) (readers.map Reader.action)).programs[i]? =
      some reader.action := by
    simp [Machine.programs_start, hi]
  exact Machine.inTurn schedule hprogram fun use _ _ _ => use.deals

/-- A thread acknowledges in order what it takes. -/
theorem inOrder_of_reader (schedule : List (Machine.Move interface (List Reply)))
    (hi : readers[i]? = some reader) (hauto : reader.consumer.mode = .auto) :
    let h := runReaders S w readers schedule
    ∃ pending : List (ChannelId × Channel.Call), pending.length ≤ 1 ∧
      ((eventsOf i h.trace).filterMap taken?).map (acknowledgment reader.consumer) =
        ((eventsOf i h.trace).filterMap sent?).map Sent.settlement ++ pending ∧
      ((h.machine.result? i).isSome → pending = []) := by
  obtain ⟨replies, hturns, hend⟩ := turns_of_reader (S := S) (w := w) schedule hi
  obtain ⟨pending, hlength, horder, hall⟩ := inOrder_of_turns hauto hturns
  refine ⟨pending, hlength, horder, fun hsome => ?_⟩
  obtain ⟨all, hresult⟩ := Option.isSome_iff_exists.mp hsome
  exact hall (hend all hresult).2

theorem thread_lt_of_reader {schedule : List (Machine.Move interface (List Reply))}
    {e : Event interface (Setting S)} (he : e ∈ (runReaders S w readers schedule).trace) :
    e.thread < readers.length := by
  have hlt := Machine.thread_lt he
  rwa [Machine.programs_start, List.length_map] at hlt

end Run

/-- **Every delivery is acknowledged as it is taken**, whatever the threads
do, the channels answer and the schedule is. -/
theorem acks_once (S : Surroundings) (w : World) (readers : List Reader)
    (schedule : List (Machine.Move interface (List Reply))) :
    AcksOnce hiddenByIteration readers (runReaders S w readers schedule) where
  deals := fun i reader hi => turns_of_reader schedule hi
  inOrder := fun i reader hi hauto => inOrder_of_reader schedule hi hauto
  once := by
    intro c hauto
    have hlt : ∀ e ∈ (runReaders S w readers schedule).trace, e.thread < readers.length :=
      fun e he => thread_lt_of_reader he
    have hown : ∀ i, readers[i]?.map Reader.consumer = some c →
        ∃ pending : List (ChannelId × Channel.Call),
          (eventsOf i (runReaders S w readers schedule).trace).filterMap
              (fun e => (taken? e).map (acknowledgment c)) =
            (eventsOf i (runReaders S w readers schedule).trace).filterMap
              (fun e => (sent? e).map Sent.settlement) ++ pending ∧
            (((runReaders S w readers schedule).machine.result? i).isSome → pending = []) := by
      intro i hi
      obtain ⟨reader, hreader, rfl⟩ := Option.map_eq_some_iff.mp hi
      obtain ⟨pending, -, horder, hall⟩ :=
        inOrder_of_reader (S := S) (w := w) schedule hreader hauto
      rw [List.map_filterMap, List.map_filterMap] at horder
      exact ⟨pending, horder, hall⟩
    -- the order is one of each thread; together there are as many of either
    simp only [List.map_filterMap]
    have hle := subperm_of_threads (readers[·]?.map Reader.consumer = some c) hlt fun i hi => by
      obtain ⟨pending, horder, -⟩ := hown i hi
      exact (horder ▸ List.sublist_append_left _ pending).subperm
    refine ⟨hle, fun hreturned => hle.antisymm (subperm_of_threads
      (readers[·]?.map Reader.consumer = some c) hlt fun i hi => ?_)⟩
    obtain ⟨pending, horder, hall⟩ := hown i hi
    obtain ⟨reader, hreader, hconsumer⟩ := Option.map_eq_some_iff.mp hi
    rw [hall (hreturned i reader hreader hconsumer), List.append_nil] at horder
    exact (List.Perm.of_eq horder).subperm
  silent := by
    intro e he hsent
    have hlt := thread_lt_of_reader he
    refine ⟨readers[e.thread], List.getElem?_eq_getElem hlt, ?_⟩
    by_contra hmode
    obtain ⟨replies, hturns, -⟩ := turns_of_reader (S := S) (w := w) schedule
      (List.getElem?_eq_getElem hlt)
    have hnone := List.filterMap_eq_nil_iff.mp (sent_of_turns hmode hturns) e
      (List.mem_filter.mpr ⟨he, by simp⟩)
    rw [hnone] at hsent
    cases hsent

/-- Surroundings in which every call on a channel fails with the error of a
closed queue. -/
def mistakable : Surroundings :=
  { (default : Surroundings) with
    answer := fun _ call => match call with
      | .channel _ _ => .error .queueClosed
      | .log _ _ => () }

/-- A delivery is brought to a consumer that acknowledges automatically, and
is what an iteration comes to. -/
def iterating : List Reader :=
  [⟨⟨0, 0, 0, .auto⟩, [.report (.deliver { (default : Delivery) with tag := 7 }), .next {}]⟩]

/-- **An iteration may hide that an acknowledgment has failed**: the
delivery has left the queue, and the iteration ends without an error. -/
theorem not_acksOnce : ¬ AcksOnce (fun _ _ => False) iterating
    (runReaders mistakable {} iterating (List.replicate 5 (.advance .longest 0))) := by
  intro h
  obtain ⟨replies, hturns, hend⟩ := h.deals 0 _ rfl
  have hresult : (runReaders mistakable {} iterating
      (List.replicate 5 (.advance .longest 0))).machine.result? 0 =
        some [.returned (.ok ()), .yielded ⟨true⟩ none] := by rfl
  obtain ⟨rfl, hlength⟩ := hend _ hresult
  have hsent : (eventsOf 0 (runReaders mistakable {} iterating
      (List.replicate 5 (.advance .longest 0))).trace).filterMap sent? =
        [⟨0, .acknowledge 7, .error .queueClosed⟩] := by rfl
  obtain ⟨r, hr, herror⟩ := exists_error_of_turns rfl hturns hlength
    (hsent ▸ List.mem_cons_self) rfl
  rcases List.mem_cons.mp hr with rfl | hr
  · cases herror
  · rw [List.mem_singleton.mp hr] at herror
    cases herror

end MessageIntake.Acknowledgment
