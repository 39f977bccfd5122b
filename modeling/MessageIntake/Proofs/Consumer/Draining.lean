import MessageIntake.Proofs.Consumer.Acknowledgment
import MessageIntake.Proofs.Consumer.Paces
import MessageIntake.Proofs.Machine.Bounded
import MessageIntake.Proofs.Queue.EndOfStream

/-!
# A closed queue is drained

The queue of a consumer is closed, and deliveries are left in it. Threads take them, by
iterating or by dequeues of any pace, through one consumer or several, in any mode. Each
delivery goes to one of them, in the order of the queue; each call returns it, or the error
of its acknowledgment, and goes on to the next one in either case; and once none is left,
every iteration ends and stays at its end (`drains_to_end`).

What one call does is read off its walk (`walk_draw`), and what a thread does off its
calls (`walk_calls`), given that the queue stays closed and stays empty once it is. Of
the channels it is assumed that they do not fail with the error of a closed queue.
-/

namespace MessageIntake

open Client

/-- Surroundings whose channels do not fail with the error of a closed queue. -/
structure Client.Honest extends Surroundings where
  honest : ∀ turn id call, answer turn (.channel id call) ≠ .error .queueClosed

instance : Inhabited Honest := ⟨{ (default : Surroundings) with honest := nofun }⟩

namespace Draining

open Settlement Source
open Acknowledgment (Sent sent? onDequeued_walk andThen_bind taken?_of_unanswered items_of_taken
  quiet_of_plain plain_ne_runs filterMap_eq_nil)

/-! ## Threads that take -/

/-- A call that takes a delivery: a step of an iteration, or a dequeue. -/
inductive Draw where
  | next
  | dequeue (pace : Pace)

/-- What such a call returns. -/
inductive Reply where
  | yielded (item : Option (Result Delivery))
  | dequeued (result : Result (Option Delivery))

/-- The call, given the iterator of its thread. -/
def Draw.action (c : Consumer) (it : Queue.Iterator) : Draw → Action (Queue.Iterator × Reply)
  | .next => do
    let (it, item) ← c.nextDelivery it
    return (it, .yielded item)
  | .dequeue pace => do return (it, .dequeued (← (Taker.plain c).dequeue pace))

/-- One call after another, with the replies. The steps of iteration are those of one
iterator. -/
def calls (c : Consumer) : Queue.Iterator → List Draw → Action (List Reply)
  | _, [] => return []
  | it, x :: rest => do
    let (it, reply) ← x.action c it
    return reply :: (← calls c it rest)

/-- A thread that takes from the queue `id`. -/
structure Reader (id : QueueId) where
  consumer : Consumer
  queue_eq : consumer.queue = id
  draws : List Draw

/-- Its program. -/
def Reader.action {id : QueueId} (reader : Reader id) : Action (List Reply) :=
  calls reader.consumer {} reader.draws

/-! ## What is read off a run -/

variable {S : Surroundings}

/-- The delivery that an event takes off the queue `id`. -/
def drawn? (id : QueueId) (e : Event interface (Setting S)) : Option Delivery :=
  if e.request.On id then taken? e else none

/-- What was taken off the queue, with the threads that took it. -/
def handed (id : QueueId) (trace : Trace S) : List (Nat × Delivery) :=
  trace.filterMap fun e => (drawn? id e).map fun d => (e.thread, d)

/-- The share of thread `i`, in the order in which it left the queue. -/
def share (id : QueueId) (i : Nat) (trace : Trace S) : List Delivery :=
  ((handed id trace).filter (·.1 = i)).map Prod.snd

/-- A delivery that was taken, with the answer to its acknowledgment. A consumer that does not
acknowledge automatically does not ask for one; then the answer counts as success. -/
structure Parcel where
  delivery : Delivery
  answer : Result Unit

/-- What the call returns that has taken it. -/
def Parcel.outcome (x : Parcel) : Result Delivery := x.answer.map fun _ => x.delivery

/-- The calls on the channel. -/
def acknowledgments (c : Consumer) (parcels : List Parcel) : List Sent :=
  if c.mode = .auto then parcels.map fun x => ⟨c.channel, .acknowledge x.delivery.tag, x.answer⟩
  else []

/-- What a call returns: the outcome for a delivery, or that there is none any more. -/
def Draw.reply : Draw → Option (Result Delivery) → Reply
  | .next, item => .yielded item
  | .dequeue _, some outcome => .dequeued (outcome.map some)
  | .dequeue _, none => .dequeued (.error .queueClosed)

/-- **What a thread has taken and sent.** -/
structure Accounts (c : Consumer) (taken : List Delivery) (sent : List Sent)
    (parcels : List Parcel) : Prop where
  taken : parcels.map Parcel.delivery = taken
  sent : sent = acknowledgments c parcels
  unsent : c.mode ≠ .auto → ∀ x ∈ parcels, x.answer = .ok ()

/-- **What its calls have returned**: an outcome for each delivery in turn, and from then on
that there is none any more. -/
def told : List Draw → List Parcel → List Reply
  | x :: draws, parcel :: parcels => x.reply (some parcel.outcome) :: told draws parcels
  | draws, [] => draws.map fun x => x.reply none
  | [], _ :: _ => []

/-! ## One call -/

section Walks

variable {c : Consumer} {events later : Trace S} {parcels parcels' : List Parcel}

theorem Accounts.nil (c : Consumer) : Accounts c [] [] [] :=
  ⟨rfl, by simp [acknowledgments], fun _ _ hx => absurd hx List.not_mem_nil⟩

theorem Accounts.append {taken taken' : List Delivery} {sent sent' : List Sent}
    (h : Accounts c taken sent parcels) (h' : Accounts c taken' sent' parcels') :
    Accounts c (taken ++ taken') (sent ++ sent') (parcels ++ parcels') where
  taken := by rw [List.map_append, h.taken, h'.taken]
  sent := by
    rw [h.sent, h'.sent]
    unfold acknowledgments
    split
    · rw [List.map_append]
    · rfl
  unsent hmode x hx := (List.mem_append.mp hx).elim (h.unsent hmode x) (h'.unsent hmode x)

/-- An event finds the queue without an item. -/
def Dry (id : QueueId) (e : Event interface (Setting S)) : Prop :=
  (Carries.queue e.before id).items = []

/-- What a removal finds is what its event takes. -/
theorem handedOut?_of_found {pace : Pace} (i : Nat) (q q' : Queue Delivery)
    (answer : pace.call.Answer) :
    Queue.handedOut? ⟨i, q, pace.call, some answer, q'⟩ =
      (pace.found answer).toOption.join := by
  cases pace <;> cases answer <;> rfl

/-- A removal from a closed queue finds the first item, or the end. -/
theorem found_cases {q : Queue Delivery} (hclosed : q.isOpen = false) (visit : Visit)
    {pace : Pace} {answer : pace.call.Answer}
    (h : (q.pass visit pace.call).turn.answer? = some answer) :
    (∃ d, pace.found answer = .ok (some d)) ∨
      pace.found answer = .error .queueClosed ∧ q.items = [] := by
  obtain ⟨items, isOpen⟩ := q
  obtain rfl : isOpen = false := hclosed
  cases items with
  | cons d rest =>
    obtain ⟨answer', hpass, hfound⟩ := Queue.gives_of_cons d rest false visit pace
    rw [hpass] at h
    obtain rfl := Option.some_inj.mp h
    exact .inl ⟨d, hfound⟩
  | nil =>
    obtain ⟨answer', hpass, hfound⟩ := Queue.gives_of_closed visit pace
    rw [hpass] at h
    obtain rfl := Option.some_inj.mp h
    exact .inr ⟨hfound, rfl⟩

/-- A delivery that was found is settled as the mode says. -/
theorem settle_found (c : Consumer) (d : Delivery) :
    (Taker.plain c).settle (.ok (some d)) =
      (c.onDequeued d).bind fun answer => .done ((answer.map fun _ => d).map some) := by
  have hbind := andThen_bind (c.onDequeued d) (some d)
    (fun r => (.done r : Action (Result (Option Delivery))))
  rw [Program.bind_done] at hbind
  refine hbind.trans (congrArg _ (funext fun answer => ?_))
  cases answer <;> rfl

/-- The channels of honest surroundings do not answer with the error of a closed queue. -/
theorem answer_of_sent {S : Honest} {events : Trace S.toSurroundings} {β : Type}
    {p q : Action β} (h : Walk p events q) {x : Sent} (hx : x ∈ events.filterMap sent?) :
    x.answer ≠ .error .queueClosed := by
  obtain ⟨e, he, hsent⟩ := List.mem_filterMap.mp hx
  obtain ⟨i, visit, s, r, rfl⟩ := h.exists_of_mem he
  match r with
  | .outside (.channel id call) =>
    by_cases hcall : call.settles
    · have hx : (⟨id, call, S.answer s.turn (.channel id call)⟩ : Sent) = x := by
        simpa [sent?, Event.of, Server.serve, Served.answer?, hcall] using hsent
      rw [← hx]
      exact S.honest s.turn id call
    · simp [sent?, Event.of, Server.serve, Served.answer?, hcall] at hsent
  | .outside (.log _ _) | .under _ | .notify _ _ => cases hsent

/-- What a dequeue makes of what it has come to: a delivery, or the end. -/
def found : Option Parcel → Result (Option Delivery)
  | some x => x.outcome.map some
  | none => .error .queueClosed

/-- What comes after a delivery was found: nothing more is taken, and the delivery is
acknowledged if the mode says so. -/
theorem walk_settle {S : Honest} {events : Trace S.toSurroundings} {d : Delivery}
    {result : Result (Option Delivery)}
    (h : Walk ((Taker.plain c).settle (.ok (some d))) events (.done result)) :
    events.filterMap taken? = [] ∧ ∃ parcel, Accounts c [d] (events.filterMap sent?) [parcel] ∧
      parcel.answer ≠ .error .queueClosed ∧ result = found (some parcel) := by
  rw [settle_found] at h
  obtain ⟨hnothing, hmode⟩ := onDequeued_walk h
  refine ⟨hnothing, ?_⟩
  by_cases hauto : c.mode = .auto
  · rw [if_pos hauto] at hmode
    obtain ⟨-, hnone⟩ | ⟨answer, hsent, hresult⟩ := hmode
    · cases hnone
    refine ⟨⟨d, answer⟩, ⟨rfl, hsent.trans (if_pos hauto).symm, absurd hauto⟩, ?_,
      Option.some_inj.mp hresult⟩
    exact answer_of_sent h (hsent ▸ List.mem_singleton_self _)
  · rw [if_neg hauto] at hmode
    refine ⟨⟨d, .ok ()⟩, ⟨rfl, hmode.1.trans (if_neg hauto).symm, ?_⟩, nofun,
      Option.some_inj.mp hmode.2⟩
    rintro - x hx
    rw [List.mem_singleton.mp hx]

/-- **What a call has come to** on a closed queue: a delivery, or the end. The error of a
delivery is one of its acknowledgment, and is not mistaken for the end. -/
structure Drew (c : Consumer) (events : Trace S) (parcel? : Option Parcel) : Prop where
  accounts : Accounts c (events.filterMap taken?) (events.filterMap sent?) parcel?.toList
  genuine : ∀ x ∈ parcel?, x.answer ≠ .error .queueClosed
  dry : parcel? = none → ∃ e ∈ events, Dry c.queue e

/-- **A dequeue has not removed anything yet, or goes on from what the removal has found**:
this is what it takes, and it sends nothing before. -/
theorem walk_removal {S : Surroundings} {events : Trace S} {pace : Pace}
    {q : Action (Result (Option Delivery))} (h : Walk ((Taker.plain c).dequeue pace) events q) :
    (q.result? = none ∧ events.filterMap sent? = []) ∨
      ∃ e ∈ events, ∃ (visit : Visit) (a : pace.call.Answer) (later : Trace S),
        ((Carries.queue e.before c.queue).pass visit pace.call).turn.answer? = some a ∧
        events.filterMap taken? = (pace.found a).toOption.join.toList ++ later.filterMap taken? ∧
        events.filterMap sent? = later.filterMap sent? ∧
        Walk ((Taker.plain c).settle (pace.found a)) later q := by
  rw [Taker.dequeue_plain] at h
  let removal : Request := .under (.queue c.queue pace.call)
  have hask : Walk (.ask (I := interface) removal fun answer =>
      (Taker.plain c).settle (pace.found answer)) events q := h
  have hruns : ∀ visit (s s' : Setting S) p,
      Server.serve (I := interface) visit s removal ≠ .runs s' p :=
    Request.Elsewhere.serve_ne_runs (t := 0) (r := removal) trivial
  rcases hask.of_ask hruns with ⟨rfl, hasleep⟩ |
    ⟨asleep, i, visit, s, a, later, rfl, hasleep, ha, hlater⟩
  · exact .inl ⟨rfl, filterMap_eq_nil fun e he => (taken?_of_unanswered (hasleep e he)).2⟩
  let e : Event interface (Setting S) := .of i visit s removal
  have hpass := (serve_queue visit s c.queue pace.call).1.symm.trans ha
  have htaken : taken? e = (pace.found a).toOption.join := by
    rw [taken?_of_queue, Queue.event_of, hpass]
    exact handedOut?_of_found i _ _ a
  refine .inr ⟨e, List.mem_append_right _ List.mem_cons_self, visit, a, later, hpass, ?_, ?_,
    hlater⟩
  · have hnone := filterMap_eq_nil fun e he => (taken?_of_unanswered (hasleep e he)).1
    rw [List.filterMap_append, hnone, filterMap_cons_toList, ← htaken]
    rfl
  · have hsilent := filterMap_eq_nil fun e he => (taken?_of_unanswered (hasleep e he)).2
    rw [List.filterMap_append, hsilent]
    rfl

/-- **A dequeue from a closed queue**, of any pace. -/
theorem walk_dequeue {S : Honest} {events : Trace S.toSurroundings} (pace : Pace)
    {result : Result (Option Delivery)}
    (h : Walk ((Taker.plain c).dequeue pace) events (.done result))
    (hclosed : ∀ e ∈ events, (Carries.queue e.before c.queue).isOpen = false) :
    ∃ parcel?, Drew c events parcel? ∧ result = found parcel? := by
  rcases walk_removal h with ⟨hdone, -⟩ | ⟨e, he, visit, a, later, hpass, htaken, hsent, hlater⟩
  · cases hdone
  rcases found_cases (hclosed e he) visit hpass with ⟨d, hfound⟩ | ⟨hfound, hempty⟩
  · rw [hfound] at htaken hlater
    obtain ⟨hnothing, parcel, haccounts, hgenuine, hresult⟩ := walk_settle hlater
    refine ⟨some parcel, ⟨?_, ?_, fun h => absurd h (Option.some_ne_none parcel)⟩, hresult⟩
    · rw [htaken, hsent, hnothing]
      exact haccounts
    · rintro _ ⟨⟩
      exact hgenuine
  · rw [hfound] at htaken hlater
    obtain ⟨rfl, hresult⟩ := hlater.of_done
    refine ⟨none, ⟨?_, fun _ hx => absurd hx (Option.not_mem_none _), fun _ => ⟨e, he, hempty⟩⟩,
      Program.done.inj hresult⟩
    rw [htaken, hsent]
    exact .nil c

/-- What an iteration makes of it: only the end is taken for the end. -/
theorem taken_of_found {result : Result Delivery} {parcel? : Option Parcel}
    (h : result.map some = found parcel?)
    (hgenuine : ∀ x ∈ parcel?, x.answer ≠ .error .queueClosed) :
    (Consumer.taken ⟨false⟩ result).2 = parcel?.map Parcel.outcome ∧
      (parcel?.isSome → (Consumer.taken ⟨false⟩ result).1 = ⟨false⟩) := by
  cases parcel? with
  | none =>
    cases result with
    | ok d => cases h
    | error e =>
      obtain rfl : e = .queueClosed := Except.error.inj h
      exact ⟨rfl, nofun⟩
  | some x =>
    obtain ⟨d, answer⟩ := x
    have hanswer : answer ≠ .error .queueClosed := hgenuine _ rfl
    cases answer with
    | ok =>
      cases result with
      | ok d' =>
        obtain rfl : d' = d := Option.some_inj.mp (Except.ok.inj h)
        exact ⟨rfl, fun _ => rfl⟩
      | error e => cases h
    | error e =>
      cases result with
      | ok d' => cases h
      | error e' =>
        obtain rfl : e' = e := Except.error.inj h
        cases e' with
        | queueClosed => exact absurd rfl hanswer
        | _ => exact ⟨rfl, fun _ => rfl⟩

/-- **A step of an iteration over a closed queue.** Once it has come to its end it asks
nothing. -/
theorem walk_next {S : Honest} {events : Trace S.toSurroundings} {it it' : Queue.Iterator}
    {item : Option (Result Delivery)}
    (h : Walk (c.nextDelivery it) events (.done (it', item)))
    (hclosed : ∀ e ∈ events, (Carries.queue e.before c.queue).isOpen = false) :
    (it.finished ∧ events = [] ∧ item = none) ∨
      ∃ parcel?, Drew c events parcel? ∧ item = parcel?.map Parcel.outcome ∧
        (parcel?.isSome → it' = it) := by
  obtain ⟨finished⟩ := it
  cases finished with
  | true =>
    obtain ⟨rfl, hdone⟩ := h.of_done
    cases hdone
    exact .inl ⟨rfl, rfl, rfl⟩
  | false =>
    obtain ⟨result, hdequeue, hdone⟩ :=
      Walk.of_bind_map (p := c.dequeue) (f := Consumer.taken ⟨false⟩) h
    -- a step of an iteration is a dequeue that waits, so what is known of that is known here
    obtain ⟨parcel?, hdrew, hfound⟩ := walk_dequeue .waiting
      (hdequeue.bind fun r => .done (r.map some)) hclosed
    have htaken := taken_of_found hfound hdrew.genuine
    rw [← hdone] at htaken
    exact .inr ⟨parcel?, hdrew, htaken⟩

/-- **A call on a closed queue** has come to a delivery or the end, and says so. -/
theorem walk_draw {S : Honest} {events : Trace S.toSurroundings} {x : Draw}
    {it it' : Queue.Iterator} {reply : Reply}
    (h : Walk (x.action c it) events (.done (it', reply)))
    (hclosed : ∀ e ∈ events, (Carries.queue e.before c.queue).isOpen = false) :
    (it.finished ∧ events = [] ∧ reply = x.reply none) ∨
      ∃ parcel?, Drew c events parcel? ∧ reply = x.reply (parcel?.map Parcel.outcome) ∧
        (parcel?.isSome → it' = it) := by
  cases x with
  | next =>
    obtain ⟨⟨it'', item⟩, hnext, hdone⟩ :=
      Walk.of_bind_map (p := c.nextDelivery it) (f := fun r => (r.1, Reply.yielded r.2)) h
    cases hdone
    rcases walk_next hnext hclosed with ⟨hfinished, hevents, rfl⟩ | ⟨parcel?, hdrew, rfl, hit⟩
    · exact .inl ⟨hfinished, hevents, rfl⟩
    · exact .inr ⟨parcel?, hdrew, rfl, hit⟩
  | dequeue pace =>
    obtain ⟨result, hdequeue, hdone⟩ :=
      Walk.of_bind_map (p := (Taker.plain c).dequeue pace) (f := fun r => (it, Reply.dequeued r)) h
    cases hdone
    obtain ⟨parcel?, hdrew, rfl⟩ := walk_dequeue pace hdequeue hclosed
    refine .inr ⟨parcel?, hdrew, ?_, fun _ => rfl⟩
    cases parcel? <;> rfl

/-! ## A thread -/

/-- What a thread that takes from the queue `id` asks: the queue, for a delivery, and the
outside. -/
def Asked (id : QueueId) : Request → Prop
  | .under (.queue id' call) => id' = id ∧ ∃ pace : Pace, call = pace.call
  | .outside _ => True
  | .under _ | .notify _ _ => False

theorem onDequeued_asks (c : Consumer) (d : Delivery) :
    (c.onDequeued d).Asks (Asked c.queue) ∧ (c.onDequeued d).Within 2 := by
  unfold Consumer.onDequeued
  cases c.mode with
  | auto => exact ⟨.ask trivial fun _ => .ask trivial fun _ => .done _,
      .ask fun _ => .ask fun _ => .done 0 _⟩
  | manual | transactional => exact ⟨.done _, .done 2 _⟩

theorem settle_asks (c : Consumer) (found : Result (Option Delivery)) :
    ((Taker.plain c).settle found).Asks (Asked c.queue) ∧
      ((Taker.plain c).settle found).Within 2 := by
  rcases found with e | _ | d
  · exact ⟨.done _, .done 2 _⟩
  · exact ⟨.done _, .done 2 _⟩
  · rw [settle_found]
    exact ⟨(onDequeued_asks c d).1.bind fun _ => .done _, (onDequeued_asks c d).2.map _⟩

theorem dequeue_asks (c : Consumer) (pace : Pace) :
    ((Taker.plain c).dequeue pace).Asks (Asked c.queue) ∧
      ((Taker.plain c).dequeue pace).Within 3 := by
  rw [Taker.dequeue_plain]
  exact ⟨.ask ⟨rfl, pace, rfl⟩ fun a => (settle_asks c (pace.found a)).1,
    .ask fun a => (settle_asks c (pace.found a)).2⟩

/-- To take a delivery asks the queue once, and then the log and the channel at most. -/
theorem draw_asks (c : Consumer) (it : Queue.Iterator) (x : Draw) :
    (x.action c it).Asks (Asked c.queue) ∧ (x.action c it).Within 3 := by
  cases x with
  | dequeue pace =>
    exact ⟨(dequeue_asks c pace).1.bind fun _ => .done _, (dequeue_asks c pace).2.map _⟩
  | next =>
    obtain ⟨finished⟩ := it
    cases finished with
    | true => exact ⟨.done _, .done 3 _⟩
    | false =>
      have hdequeue : c.dequeue.Asks (Asked c.queue) ∧ c.dequeue.Within 3 := by
        refine ⟨.ask ⟨rfl, .waiting, rfl⟩ fun a => ?_, .ask fun a => ?_⟩ <;> rcases a with e | d
        · exact .done _
        · exact (onDequeued_asks c d).1.bind fun answer => by cases answer <;> exact .done _
        · exact .done 2 _
        · exact (onDequeued_asks c d).2.bind (k := 0) fun answer => by
            cases answer <;> exact .done 0 _
      exact ⟨(hdequeue.1.bind fun _ => .done _).bind fun _ => .done _,
        (hdequeue.2.map (Consumer.taken ⟨false⟩)).map fun r => (r.1, Reply.yielded r.2)⟩

theorem calls_asks (c : Consumer) (it : Queue.Iterator) (draws : List Draw) :
    (calls c it draws).Asks (Asked c.queue) ∧ (calls c it draws).Within (3 * draws.length) := by
  induction draws generalizing it with
  | nil => exact ⟨.done _, .done 0 _⟩
  | cons x rest ih =>
    have hrest (r : Queue.Iterator × Reply) := ih r.1
    refine ⟨(draw_asks c it x).1.bind fun r => (hrest r).1.bind fun _ => .done _, ?_⟩
    rw [List.length_cons, Nat.mul_succ, Nat.add_comm]
    exact (draw_asks c it x).2.bind fun r => (hrest r).2.map fun replies => r.2 :: replies

/-- Who finds no item takes none. -/
theorem taken?_of_dry {id : QueueId} {i : Nat} {visit : Visit} {s : Setting S} {r : Request}
    (hasked : Asked id r) (hdry : Dry id (.of (I := interface) i visit s r)) :
    taken? (.of (I := interface) i visit s r) = none := by
  match r with
  | .under (.queue id' call) =>
    obtain ⟨rfl, -⟩ := hasked
    by_contra htaken
    obtain ⟨d, hd⟩ := Option.ne_none_iff_exists'.mp htaken
    have hitems := items_of_taken hd
    have hnone : (s.world.queues.get id').items = [] := hdry
    rw [hnone] at hitems
    cases hitems
  | .outside _ => rfl

/-- Whatever such a thread takes is from the queue. -/
theorem drawn?_of_asked {id : QueueId} {e : Event interface (Setting S)}
    (h : Asked id e.request) : drawn? id e = taken? e := by
  obtain ⟨i, s, r, answer, s'⟩ := e
  cases r with
  | under lock =>
    cases lock with
    | queue id' call => exact if_pos (decide_eq_true h.1)
    | lifecycle | transaction | newFlag | settle => exact h.elim
  | outside call => rfl
  | notify participant notice => exact h.elim

/-- No program runs for what such a thread asks. -/
theorem asked_ne_runs {id : QueueId} (r : Request) (hr : Asked id r) (visit : Visit)
    (s s' : Setting S) (p : Action r.Answer) :
    Server.serve (I := interface) visit s r ≠ .runs s' p :=
  Request.ne_runs_of (fun _ _ hr => hr) r hr visit s s' p

/-- Nothing is taken any more where the queue is found without an item. -/
theorem taken_of_dry {it : Queue.Iterator} {draws : List Draw} {q : Action (List Reply)}
    (h : Walk (calls c it draws) events q) (hdry : ∀ e ∈ events, Dry c.queue e) :
    events.filterMap taken? = [] := by
  refine filterMap_eq_nil fun e he => ?_
  have hasked := h.allowed asked_ne_runs (calls_asks c it draws).1 e he
  have he' := hdry e he
  obtain ⟨i, visit, s, r, rfl⟩ := h.exists_of_mem he
  exact taken?_of_dry hasked he'

/-- **What a thread has come to** when all its calls have returned, on a queue that is closed
and stays empty once it is. -/
theorem walk_calls {S : Honest} {draws : List Draw} :
    ∀ {it : Queue.Iterator} {events : Trace S.toSurroundings} {replies : List Reply},
      Walk (calls c it draws) events (.done replies) →
      (∀ e ∈ events, (Carries.queue e.before c.queue).isOpen = false) →
      events.Pairwise (fun e e' => Dry c.queue e → Dry c.queue e') →
      (it.finished → ∀ e ∈ events, Dry c.queue e) →
      ∃ parcels, Accounts c (events.filterMap taken?) (events.filterMap sent?) parcels ∧
        parcels.length ≤ draws.length ∧ replies = told draws parcels ∧
        (parcels.length < draws.length → it.finished ∨ ∃ e ∈ events, Dry c.queue e) := by
  -- induction on the calls, over any iterator: the first call leaves it as it was, or at its end
  induction draws with
  | nil =>
    intro it events replies h _ _ _
    obtain ⟨rfl, hdone⟩ := h.of_done
    cases hdone
    exact ⟨[], .nil c, Nat.le_refl _, rfl, fun h => absurd h (Nat.lt_irrefl _)⟩
  | cons x rest ih =>
    intro it events replies h hclosed hdry hfinished
    obtain ⟨⟨it', reply⟩, earlier, later, rfl, hfirst, hmore⟩ := Walk.of_bind_done h
    obtain ⟨replies', hlater, rfl⟩ := hmore.of_bind_map
    simp only [List.forall_mem_append] at hclosed hfinished
    obtain ⟨-, hdry', hacross⟩ := List.pairwise_append.mp hdry
    -- at the end of the queue nothing is left for the calls that come after
    have hend (hnone : ∀ e ∈ later, Dry c.queue e) :
        Accounts c (later.filterMap taken?) (later.filterMap sent?) [] ∧
          replies' = rest.map fun x => x.reply none := by
      obtain ⟨parcels, haccounts, -, hreplies, -⟩ := ih hlater hclosed.2 hdry' fun _ => hnone
      have htaken := haccounts.taken
      rw [taken_of_dry hlater hnone] at htaken
      obtain rfl := List.map_eq_nil_iff.mp htaken
      refine ⟨haccounts, ?_⟩
      rw [hreplies]
      cases rest <;> rfl
    rcases walk_draw hfirst hclosed.1 with ⟨hover, rfl, rfl⟩ | ⟨parcel?, hdrew, rfl, hit⟩
    · obtain ⟨haccounts, rfl⟩ := hend (hfinished hover).2
      exact ⟨[], haccounts, Nat.zero_le _, rfl, fun _ => .inl hover⟩
    cases parcel? with
    | none =>
      obtain ⟨e, he, hempty⟩ := hdrew.dry rfl
      obtain ⟨haccounts, rfl⟩ := hend fun e' he' => hacross e he e' he' hempty
      refine ⟨[], ?_, Nat.zero_le _, rfl, fun _ => .inr ⟨e, List.mem_append_left _ he, hempty⟩⟩
      rw [List.filterMap_append, List.filterMap_append]
      exact hdrew.accounts.append haccounts
    | some parcel =>
      obtain rfl : it' = it := hit rfl
      obtain ⟨parcels, haccounts, hlength, rfl, hended⟩ :=
        ih hlater hclosed.2 hdry' fun h => (hfinished h).2
      refine ⟨parcel :: parcels, ?_, Nat.succ_le_succ hlength, rfl, fun hlt => ?_⟩
      · rw [List.filterMap_append, List.filterMap_append]
        exact hdrew.accounts.append haccounts
      · refine (hended (Nat.lt_of_succ_lt_succ hlt)).imp_right ?_
        rintro ⟨e, he, hempty⟩
        exact ⟨e, List.mem_append_right _ he, hempty⟩

end Walks

/-! ## The closed queue -/

section Queue

variable {γ : Type} {id : QueueId} {s : Setting S}

/-- **A closed queue stays closed**, and what is taken comes off its front. -/
theorem serve_closed (hclosed : (Carries.queue s id).isOpen = false) (i : Nat) (visit : Visit)
    (r : Request) :
    let s' := (Server.serve (I := interface) visit s r).state
    (Carries.queue s' id).isOpen = false ∧
      (drawn? id (.of (I := interface) i visit s r)).toList ++ (Carries.queue s' id).items =
        (Carries.queue s id).items := by
  dsimp only
  cases hon : r.On id with
  | false =>
    have hnone : drawn? id (.of (I := interface) i visit s r) = none := by
      simp [drawn?, Event.of, hon]
    rw [Carries.queue_serve_of_not_on hon, hnone]
    exact ⟨hclosed, rfl⟩
  | true =>
    obtain ⟨call, rfl⟩ := Request.exists_of_on hon
    have hdrawn : drawn? id (.of (I := interface) i visit s (.under (.queue id call))) =
        Queue.handedOut? (.of i visit (Carries.queue s id) call) :=
      (if_pos hon).trans (taken?_of_queue id call)
    have hconserves := Queue.conserves i visit (Carries.queue s id) call
    rw [Queue.accepted?_of_closed hclosed, Queue.event_of] at hconserves
    rw [Carries.queue_serve, hdrawn, Queue.event_of]
    refine ⟨Bool.eq_false_iff.mpr fun hopen => ?_, hconserves.trans (List.append_nil _)⟩
    have hafter : (Event.of (I := Queue.interface Delivery) i visit (Carries.queue s id)
        call).after.isOpen = true := by rwa [Queue.event_of]
    have hwas := (Queue.isOpen_after.mp hafter).1
    rw [hclosed] at hwas
    cases hwas

/-- What such a thread asks is answered at once. -/
theorem fluent (S : Surroundings) (id : QueueId) :
    Machine.Fluent interface (fun s : Setting S => (Carries.queue s id).isOpen = false)
      (Asked id) where
  keeps visit s r hclosed := (serve_closed hclosed 0 visit r).1
  answers visit s r hclosed hasked := by
    match r with
    | .outside call => exact ⟨_, _, _, rfl⟩
    | .under (.queue id' call) =>
      obtain ⟨rfl, pace, rfl⟩ := hasked
      have hready : (Carries.queue s id').Ready := .inr hclosed
      obtain ⟨found, q', hgives⟩ := hready.exists_gives
      obtain ⟨answer, hpass, -⟩ := hgives visit pace
      refine ⟨Carries.setQueue s id' q', .nobody, answer, ?_⟩
      rw [Carries.serve_queue, hpass]
      rfl

/-- **What has happened to a closed queue**: its items have been taken one after another. It
stays closed, and without an item once it is. -/
structure Drains (id : QueueId) (ds : List Delivery) (tr : Trace S) (s : Setting S) : Prop where
  closed : (Carries.queue s id).isOpen = false
  left : tr.filterMap (drawn? id) ++ (Carries.queue s id).items = ds
  found : ∀ e ∈ tr, (Carries.queue e.before id).isOpen = false
  dry : tr.Pairwise fun e e' => Dry id e → Dry id e'
  at_end : ∀ e ∈ tr, Dry id e → (Carries.queue s id).items = []

/-- Whatever is served keeps it so. -/
theorem Drains.serve {ds : List Delivery} {tr : Trace S} (h : Drains id ds tr s) (i : Nat)
    (visit : Visit) (r : Request) :
    Drains id ds (tr ++ [.of i visit s r]) (Server.serve (I := interface) visit s r).state := by
  obtain ⟨hclosed, hitems⟩ := serve_closed h.closed i visit r
  have hstays (hnone : (Carries.queue s id).items = []) :
      (Carries.queue (Server.serve (I := interface) visit s r).state id).items = [] := by
    rw [hnone] at hitems
    exact (List.append_eq_nil_iff.mp hitems).2
  refine ⟨hclosed, ?_, ?_, ?_, ?_⟩
  · rw [filterMap_concat, List.append_assoc, hitems]
    exact h.left
  · refine List.forall_mem_append.mpr ⟨h.found, List.forall_mem_singleton.mpr h.closed⟩
  · refine List.pairwise_append.mpr ⟨h.dry, List.pairwise_singleton _ _, ?_⟩
    intro e he e' he' hempty
    rw [List.mem_singleton.mp he']
    exact h.at_end e he hempty
  · exact List.forall_mem_append.mpr ⟨fun e he hempty => hstays (h.at_end e he hempty),
      List.forall_mem_singleton.mpr hstays⟩

/-- **Every run from a closed queue drains it.** -/
theorem drains_run {m : Machine interface (Setting S) γ} {ds : List Delivery}
    (h : Carries.queue m.shared id = ⟨ds, false⟩) (schedule : List (Machine.Move interface γ)) :
    Drains id ds (m.run schedule).trace (m.run schedule).machine.shared := by
  refine Machine.run_induction (P := fun h : History interface (Setting S) γ =>
    Drains id ds h.trace h.machine.shared) ?_ ?_ schedule
  · refine ⟨?_, ?_, fun e he => absurd he List.not_mem_nil, .nil,
      fun e he => absurd he List.not_mem_nil⟩ <;> simp [h]
  · intro schedule move ih
    rcases (m.run schedule).step_cases move with
      ⟨htrace, hshared, -⟩ | ⟨i, visit, r, next, -, htrace, hshared, -⟩
    · rwa [htrace, hshared]
    · rw [htrace, hshared]
      exact ih.serve i visit r

end Queue

/-! ## Every run -/

/-- **A thread that takes nothing from the queue `id`**, whatever else it does. -/
structure Bystander (S : Surroundings) (id : QueueId) where
  action : Action (List Reply)
  idle {events : Trace S} {q : Action (List Reply)} :
    Walk action events q → ∀ e ∈ events, drawn? id e = none

/-- The broker is one: it may go on to report. -/
def Bystander.reporting (S : Surroundings) (id : QueueId) (c : Consumer) (callback : Callback) :
    Bystander S id where
  action := (callback.action c).bind fun _ => .done []
  idle h e he := by
    have hplain := h.allowed plain_ne_runs
      ((Acknowledgment.callback_asks c callback).bind fun _ => .done []) e he
    rw [drawn?, (quiet_of_plain hplain).1, ite_self]

section Run

variable {id : QueueId} (s : Setting S) (ds : List Delivery) (readers : List (Reader id))
  (others : List (Bystander S id)) (schedule : List (Machine.Move interface (List Reply))) {i : Nat}

/-- A run that drains the queue `id`: it is closed, `ds` are left in it, and the other objects
are as they may be. -/
def drain : History interface (Setting S) (List Reply) :=
  (Machine.start (Carries.setQueue s id ⟨ds, false⟩)
    (readers.map Reader.action ++ others.map Bystander.action)).run schedule

theorem drains_drain : Drains id ds (drain s ds readers others schedule).trace
    (drain s ds readers others schedule).machine.shared := by
  refine drains_run ?_ schedule
  show (Carries.world (Carries.setQueue s id ⟨ds, false⟩)).queues.get id = _
  rw [Carries.world_setQueue, Store.get_set_self]

/-- A thread is on a walk through its program. -/
theorem walk_drain {p : Action (List Reply)}
    (hp : (readers.map Reader.action ++ others.map Bystander.action)[i]? = some p) :
    ∃ q, (drain s ds readers others schedule).machine.programs[i]? = some q ∧
      Walk p (eventsOf i (drain s ds readers others schedule).trace) q :=
  Machine.walk schedule (by rw [Machine.programs_start, hp])

theorem action_of_reader {readers : List (Reader id)} {reader : Reader id}
    (hi : readers[i]? = some reader) :
    (readers.map Reader.action ++ others.map Bystander.action)[i]? = some reader.action := by
  have hlt : i < (readers.map Reader.action).length := by
    rw [List.length_map]
    exact (List.getElem?_eq_some_iff.mp hi).1
  rw [List.getElem?_append_left hlt, List.getElem?_map, hi]
  rfl

theorem map_snd_handed (id : QueueId) (tr : Trace S) :
    (handed id tr).map Prod.snd = tr.filterMap (drawn? id) := by
  simp [handed, List.map_filterMap, Function.comp_def]

/-- The share of a thread is what its events take. -/
theorem share_eq (id : QueueId) (i : Nat) (tr : Trace S) :
    share id i tr = (eventsOf i tr).filterMap (drawn? id) := by
  induction tr with
  | nil => rfl
  | cons e tr ih =>
    simp only [share, handed, eventsOf] at ih ⊢
    by_cases hi : e.thread = i <;> cases hd : drawn? id e <;> simp [hi, hd, ih]

/-- All that a reader takes is from the queue. -/
theorem share_of_reader {readers : List (Reader id)} {reader : Reader id}
    (hi : readers[i]? = some reader) :
    share id i (drain s ds readers others schedule).trace =
      (eventsOf i (drain s ds readers others schedule).trace).filterMap taken? := by
  obtain ⟨q, -, hwalk⟩ := walk_drain s ds readers others schedule
    (action_of_reader others hi)
  rw [share_eq]
  refine List.filterMap_congr fun e he => drawn?_of_asked ?_
  rw [← reader.queue_eq]
  exact hwalk.allowed asked_ne_runs (calls_asks reader.consumer {} reader.draws).1 e he

/-- Nobody takes from the queue but the readers. -/
theorem lt_of_mem_handed {x : Nat × Delivery}
    (hx : x ∈ handed id (drain s ds readers others schedule).trace) : x.1 < readers.length := by
  obtain ⟨e, he, hdrawn⟩ := List.mem_filterMap.mp hx
  obtain ⟨d, hd, rfl⟩ := Option.map_eq_some_iff.mp hdrawn
  -- a thread that is no reader is a bystander, and they take nothing
  by_contra hge
  have hlt := Machine.thread_lt he
  rw [Machine.programs_start, List.length_append, List.length_map, List.length_map] at hlt
  have hother : e.thread - readers.length < others.length := by
    dsimp only at hge
    omega
  have hprogram : (readers.map Reader.action ++ others.map Bystander.action)[e.thread]? =
      some others[e.thread - readers.length].action := by
    rw [List.getElem?_append_right (by rw [List.length_map]; exact Nat.le_of_not_lt hge),
      List.length_map, List.getElem?_map, List.getElem?_eq_getElem hother]
    rfl
  obtain ⟨q, -, hwalk⟩ := walk_drain s ds readers others schedule hprogram
  have hnone := others[e.thread - readers.length].idle hwalk e
    (List.mem_filter.mpr ⟨he, decide_eq_true rfl⟩)
  rw [hnone] at hd
  cases hd

/-- **What it means that a closed queue is dealt out** to its readers, in a run so far. -/
structure DealsOut (id : QueueId) (ds : List Delivery) (readers : List (Reader id))
    (h : History interface (Setting S) (List Reply)) : Prop where
  /-- Every delivery is taken by one thread or is still there, in the order of the queue. -/
  partition : (handed id h.trace).map Prod.snd ++ (Carries.queue h.machine.shared id).items = ds
  /-- The threads that take are the readers. -/
  takers : ∀ x ∈ handed id h.trace, x.1 < readers.length
  /-- The share of each has the order of the queue. -/
  in_order : ∀ i, (share id i h.trace).Sublist ds
  /-- A reader that has returned was told of its share in order: the delivery, or the error of
  its acknowledgment, which is the only call on the channel. It is told that there is none
  any more if and only if it has asked for more than its share, and then none is left. -/
  told : ∀ i reader replies, readers[i]? = some reader → h.machine.result? i = some replies →
    ∃ parcels, Accounts reader.consumer (share id i h.trace)
        ((eventsOf i h.trace).filterMap sent?) parcels ∧
      parcels.length ≤ reader.draws.length ∧ replies = Draining.told reader.draws parcels ∧
      (parcels.length < reader.draws.length → (Carries.queue h.machine.shared id).items = [])

end Run

/-- **A closed queue is dealt out to its readers.** -/
theorem deals_out {S : Honest} (s : Setting S.toSurroundings) {id : QueueId} (ds : List Delivery)
    (readers : List (Reader id)) (others : List (Bystander S.toSurroundings id))
    (schedule : List (Machine.Move interface (List Reply))) :
    DealsOut id ds readers (drain s ds readers others schedule) where
  partition := by
    rw [map_snd_handed]
    exact (drains_drain s ds readers others schedule).left
  takers x hx := lt_of_mem_handed s ds readers others schedule hx
  in_order i := by
    have hpartition := (drains_drain s ds readers others schedule).left
    rw [← map_snd_handed] at hpartition
    have hprefix := hpartition ▸ List.sublist_append_left _ _
    exact (List.filter_sublist.map Prod.snd).trans hprefix
  told i reader replies hi hresult := by
    obtain ⟨q, hq, hwalk⟩ := walk_drain s ds readers others schedule
      (action_of_reader others hi)
    rw [Machine.result?_eq hq] at hresult
    obtain rfl := Program.eq_done_of_result? hresult
    have hdrains := drains_drain s ds readers others schedule
    have hclosed : ∀ e ∈ eventsOf i (drain s ds readers others schedule).trace,
        (Carries.queue e.before reader.consumer.queue).isOpen = false := by
      rw [reader.queue_eq]
      exact fun e he => hdrains.found e (List.mem_of_mem_filter he)
    have hdry : (eventsOf i (drain s ds readers others schedule).trace).Pairwise fun e e' =>
        Dry reader.consumer.queue e → Dry reader.consumer.queue e' := by
      rw [reader.queue_eq]
      exact hdrains.dry.sublist List.filter_sublist
    obtain ⟨parcels, haccounts, hlength, hreplies, hended⟩ :=
      walk_calls hwalk hclosed hdry nofun
    refine ⟨parcels, ?_, hlength, hreplies, fun hlt => ?_⟩
    · rw [share_of_reader s ds others schedule hi]
      exact haccounts
    · obtain ⟨e, he, hempty⟩ := (hended hlt).resolve_left nofun
      rw [reader.queue_eq] at hempty
      exact hdrains.at_end e (List.mem_of_mem_filter he) hempty

/-- **Every reader comes to its end**, by at most three moves for each call, whatever the other
threads do in between. -/
theorem returns_of_moves {S : Surroundings} (s : Setting S) {id : QueueId} (ds : List Delivery)
    {readers : List (Reader id)} (others : List (Bystander S id)) {i : Nat} {reader : Reader id}
    (hi : readers[i]? = some reader) {schedule : List (Machine.Move interface (List Reply))}
    (hmoves : 3 * reader.draws.length ≤ schedule.countP (Machine.Move.advances i)) :
    ((drain s ds readers others schedule).machine.result? i).isSome := by
  have hasks := calls_asks reader.consumer {} reader.draws
  rw [reader.queue_eq] at hasks
  have hstrides : (Machine.start (Carries.setQueue s id ⟨ds, false⟩)
      (readers.map Reader.action ++ others.map Bystander.action)).Strides
        (fun s : Setting S => (Carries.queue s id).isOpen = false) (Asked id) i
        (3 * reader.draws.length) := by
    refine ⟨?_, .running reader.action, ?_, rfl, hasks⟩
    · exact (drains_drain s ds readers others []).closed
    · rw [Machine.start, List.getElem?_map, action_of_reader others hi]
      rfl
  exact hstrides.result?_isSome (fluent S id) hmoves

/-- One iteration, with nobody else to take from the queue. -/
def iterating (c : Consumer) (steps : Nat) : Reader c.queue :=
  ⟨c, rfl, List.replicate steps .next⟩

theorem told_replicate {steps : Nat} {parcels : List Parcel} (h : parcels.length ≤ steps) :
    told (List.replicate steps .next) parcels =
      parcels.map (fun x => .yielded (some x.outcome)) ++
        List.replicate (steps - parcels.length) (.yielded none) := by
  induction parcels generalizing steps with
  | nil =>
    cases steps with
    | zero => rfl
    | succ steps =>
      have hnone : (List.replicate (steps + 1) Draw.next).map (Draw.reply · none) =
          List.replicate (steps + 1) (.yielded none) := List.map_replicate
      exact hnone
  | cons x parcels ih =>
    obtain ⟨steps, rfl⟩ := Nat.exists_eq_add_of_le' (Nat.le_trans (Nat.le_add_left 1 _) h)
    have hstep := ih (Nat.le_of_succ_le_succ h)
    rw [List.length_cons, Nat.add_sub_add_right]
    exact congrArg (Reply.yielded (some x.outcome) :: ·) hstep

/-- What has been taken, if all was taken that was asked for, or all that there was. -/
theorem take_eq_of_append {taken left ds : List Delivery} {steps : Nat} (h : taken ++ left = ds)
    (hlength : taken.length ≤ steps) (hended : taken.length < steps → left = []) :
    ds.take steps = taken ∧ steps - ds.length = steps - taken.length := by
  subst h
  rcases Nat.lt_or_ge taken.length steps with hlt | hge
  · rw [hended hlt, List.append_nil]
    exact ⟨List.take_of_length_le hlength, rfl⟩
  · have hall : taken.length = steps := Nat.le_antisymm hlength hge
    refine ⟨List.take_left' hall, ?_⟩
    rw [List.length_append]
    omega

/-- **One iteration yields every delivery in turn**, or the error of its acknowledgment, and then
nothing for ever. -/
theorem yields_of_deals {c : Consumer} {ds : List Delivery} {steps : Nat}
    {h : History interface (Setting S) (List Reply)} {replies : List Reply}
    (hdeals : DealsOut c.queue ds [iterating c steps] h)
    (hresult : h.machine.result? 0 = some replies) :
    ∃ parcels, Accounts c (ds.take steps) ((eventsOf 0 h.trace).filterMap sent?) parcels ∧
      replies = parcels.map (fun x => .yielded (some x.outcome)) ++
        List.replicate (steps - ds.length) (.yielded none) := by
  obtain ⟨parcels, haccounts, hlength, rfl, hended⟩ := hdeals.told 0 _ _ rfl hresult
  have hsteps : (iterating c steps).draws.length = steps := List.length_replicate
  rw [hsteps] at hlength hended
  -- there is one reader, so its share is all that was handed out
  have hshare : share c.queue 0 h.trace = (handed c.queue h.trace).map Prod.snd := by
    refine congrArg (List.map Prod.snd) (List.filter_eq_self.mpr fun x hx => ?_)
    exact decide_eq_true (Nat.lt_one_iff.mp (hdeals.takers x hx))
  have htaken := haccounts.taken
  rw [hshare] at htaken haccounts
  have hpartition := hdeals.partition
  rw [← htaken] at hpartition
  have hmap : (parcels.map Parcel.delivery).length = parcels.length := List.length_map _
  obtain ⟨htake, hleft⟩ := take_eq_of_append hpartition (hmap.symm ▸ hlength) (hmap.symm ▸ hended)
  refine ⟨parcels, ?_, ?_⟩
  · rw [htake, htaken]
    exact haccounts
  · rw [hleft, hmap]
    exact told_replicate hlength

/-- **To drain the closed queue of a consumer is complete and ends**, for every channel that
does not fail with the error of a closed queue. -/
structure DrainsToEnd (S : Honest) : Prop where
  /-- One iteration with nobody else to take: it yields every delivery in turn, or the error of
  its acknowledgment, and then nothing, for every number of steps. -/
  yields_all (s : Setting S.toSurroundings) (c : Consumer) (ds : List Delivery) (steps : Nat)
    (others : List (Bystander S.toSurroundings c.queue))
    (schedule : List (Machine.Move interface (List Reply))) {replies : List Reply} :
    (drain s ds [iterating c steps] others schedule).machine.result? 0 = some replies →
    ∃ parcels, Accounts c (ds.take steps)
        ((eventsOf 0 (drain s ds [iterating c steps] others schedule).trace).filterMap sent?)
        parcels ∧
      replies = parcels.map (fun x => .yielded (some x.outcome)) ++
        List.replicate (steps - ds.length) (.yielded none)
  /-- Any number of iterations and dequeues share the deliveries out among them. -/
  deals_out (s : Setting S.toSurroundings) {id : QueueId} (ds : List Delivery)
    (readers : List (Reader id)) (others : List (Bystander S.toSurroundings id))
    (schedule : List (Machine.Move interface (List Reply))) :
    DealsOut id ds readers (drain s ds readers others schedule)
  /-- And all of them return, each by at most three moves for each of its calls. -/
  returns (s : Setting S.toSurroundings) {id : QueueId} (ds : List Delivery)
    {readers : List (Reader id)} (others : List (Bystander S.toSurroundings id)) {i : Nat}
    {reader : Reader id} {schedule : List (Machine.Move interface (List Reply))} :
    readers[i]? = some reader →
    3 * reader.draws.length ≤ schedule.countP (Machine.Move.advances i) →
    ((drain s ds readers others schedule).machine.result? i).isSome

/-- **A closed queue is drained to its end.** -/
theorem drains_to_end (S : Honest) : DrainsToEnd S where
  yields_all s c ds steps others schedule _ h :=
    yields_of_deals (deals_out s ds [iterating c steps] others schedule) h
  deals_out := deals_out
  returns s _ ds _ others _ _ _ hi hmoves := returns_of_moves s ds others hi hmoves

end Draining

end MessageIntake
