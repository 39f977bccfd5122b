import MessageIntake.Handler
import MessageIntake.Proofs.Consumer.Draining
import MessageIntake.Proofs.Machine.Account

/-!
# A handler's verdict settles

A worker takes deliveries from a consumer that settles nothing itself, and gives them one
after another, in this order, to handlers of the application. Whatever the handlers come
to and whatever the channel answers, each of these deliveries is settled by one call,
after its handler has run once: an acknowledgment if the handler succeeded, a rejection
with the requeue setting if it failed. The invocation returns the verdict if the call
succeeded, and the error of the channel else (`settles_by_verdict`).

`Invocation` is how far one invocation has come by its events, and `Course` divides the
events of a worker into those of its steps. What a worker sends, and in which order, is
read off its course.
-/

namespace MessageIntake.Handled

open Client Settlement
open Acknowledgment (Sent sent? filterMap_eq_nil quiet_of_plain)
open Draining (walk_removal settle_found)

variable {S : Surroundings} {ε α : Type}

/-! ## Workers -/

/-- **What the application does with a delivery.** It may ask for whatever it likes before it
comes to a verdict, but settles nothing itself. -/
structure Job (S : Surroundings) (ε α : Type) where
  run : Delivery → Action (Except ε α)
  quiet {d : Delivery} {events : Trace S} {q : Action (Except ε α)} :
    Walk (run d) events q → events.filterMap sent? = []

/-- A function of the delivery is such a job. -/
def Job.ofFunction (verdict : Delivery → Except ε α) : Job S ε α where
  run d := .done (verdict d)
  quiet h := by rw [h.of_done.1]; rfl

/-- A step of a worker: it takes a delivery, or does a job with the next one in hand. -/
inductive Step (S : Surroundings) (ε α : Type) where
  | take (pace : Pace)
  | handle (job : Job S ε α)

/-- What comes of it. -/
inductive Reply (ε α : Type) where
  | took (found : Result (Option Delivery))
  | handled (outcome : Result (Except ε α))
  /-- There was no delivery in hand. -/
  | idle

namespace Reply

/-- The deliveries that a dequeue returns. -/
def deliveries : Reply ε α → List Delivery
  | took found => found.toOption.join.toList
  | handled _ | idle => []

/-- What an invocation returns. -/
def outcome? : Reply ε α → Option (Result (Except ε α))
  | handled outcome => some outcome
  | took _ | idle => none

/-- What is in hand then: a delivery that is taken comes last, and the first one has been
handled. -/
def hand (before : List Delivery) : Reply ε α → List Delivery
  | took found => before ++ found.toOption.join.toList
  | handled _ => before.tail
  | idle => before

end Reply

/-- The program of a step, given what is in hand. -/
def Step.action (c : Consumer) (h : AcknowledgeHandler) :
    List Delivery → Step S ε α → Action (Reply ε α)
  | _, .take pace => do return .took (← (Taker.plain c).dequeue pace)
  | [], .handle _ => return .idle
  | d :: _, .handle job => do return .handled (← h.invoke d job.run)

/-- One step after another, with the replies. -/
def work (c : Consumer) (h : AcknowledgeHandler) :
    List Delivery → List (Step S ε α) → Action (List (Reply ε α))
  | _, [] => return []
  | hand, step :: rest => do
    let reply ← step.action c h hand
    return reply :: (← work c h (reply.hand hand) rest)

/-- **A worker**: it takes deliveries from a consumer that leaves them to be settled, and
has some in hand. -/
structure Worker (S : Surroundings) (ε α : Type) where
  consumer : Consumer
  manual : consumer.mode = .manual
  handler : AcknowledgeHandler
  hand : List Delivery := []
  steps : List (Step S ε α)

def Worker.action (worker : Worker S ε α) : Action (List (Reply ε α)) :=
  work worker.consumer worker.handler worker.hand worker.steps

/-! ## One invocation -/

/-- A delivery that was handled: the verdict on it, and what the channel answered when it
was settled. -/
structure Case (ε α : Type) where
  delivery : Delivery
  verdict : Except ε α
  answer : Result Unit

namespace Case

/-- The call that settles it. -/
def sent (h : AcknowledgeHandler) (x : Case ε α) : Sent where
  channel := h.channel
  call := match x.verdict with
    | .ok _ => .acknowledge x.delivery.tag
    | .error _ => .reject x.delivery.tag h.requeueOnFailure
  answer := x.answer

/-- What its invocation returns. -/
def outcome (x : Case ε α) : Result (Except ε α) := x.answer.map fun _ => x.verdict

theorem outcome_eq_ok {x : Case ε α} {verdict : Except ε α} :
    x.outcome = .ok verdict ↔ x.answer = .ok () ∧ verdict = x.verdict := by
  unfold outcome
  cases x.answer <;> simp [Except.map, eq_comm]

theorem outcome_eq_error {x : Case ε α} {e : Error} :
    x.outcome = .error e ↔ x.answer = .error e := by
  unfold outcome
  cases x.answer <;> simp [Except.map]

end Case

/-- **How far an invocation has come**, by its events, the case that it has made of the
delivery, and what it has returned. -/
inductive Invocation (h : AcknowledgeHandler) (d : Delivery) (job : Job S ε α) :
    Trace S → Option (Case ε α) → Option (Result (Except ε α)) → Prop
  /-- The handler is running. -/
  | runs {ran : Trace S} {q : Action (Except ε α)} : Walk (job.run d) ran q → q.result? = none →
    Invocation h d job ran none none
  /-- The handler has come to a verdict, and the channel has not been called. -/
  | judged {ran : Trace S} {verdict : Except ε α} : Walk (job.run d) ran (.done verdict) →
    Invocation h d job ran none none
  /-- The handler has run, and then the verdict was settled; nothing but the log comes
  after. -/
  | settled {ran logged : Trace S} {x : Case ε α} {e : Event interface (Setting S)}
    {outcome? : Option (Result (Except ε α))} : x.delivery = d →
    Walk (job.run d) ran (.done x.verdict) → sent? e = some (x.sent h) →
    (∀ e ∈ logged, ∃ level text, e.request = .outside (.log level text)) →
    (∀ outcome ∈ outcome?, outcome = x.outcome) →
    Invocation h d job (ran ++ e :: logged) (some x) outcome?

section Walks

variable {events : Trace S} {h : AcknowledgeHandler} {d : Delivery} {job : Job S ε α}
  {case? : Option (Case ε α)} {outcome? : Option (Result (Except ε α))}

/-- A call that settles a delivery, and what is done after it: the answer alone decides on
what is returned. -/
theorem walk_settlement {id : ChannelId} {call : Channel.Call} {level : Level} {text : String}
    {verdict : Except ε α} {q : Action (Result (Except ε α))}
    (h : Walk ((Client.channel id call).andThen fun _ =>
      (log level text).bind fun _ => .done (.ok verdict)) events q) (hcall : call.settles) :
    (events = [] ∧ q.result? = none) ∨
      ∃ e answer logged, events = e :: logged ∧ sent? e = some ⟨id, call, answer⟩ ∧
        (∀ e ∈ logged, ∃ level text, e.request = .outside (.log level text)) ∧
        ∀ outcome ∈ q.result?, outcome = answer.map fun _ => verdict := by
  rcases h.of_prompt_ask (fun _ _ => rfl) with ⟨rfl, rfl⟩ |
    ⟨i, visit, s, answer, later, rfl, hanswer, h⟩
  · exact .inl ⟨rfl, rfl⟩
  have hsent : sent? (.of (I := interface) i visit s (.outside (.channel id call))) =
      some ⟨id, call, answer⟩ := by
    simp only [Event.of, hanswer, sent?, hcall, if_true]
  refine .inr ⟨_, answer, later, rfl, hsent, ?_⟩
  cases answer with
  | error e =>
    obtain ⟨rfl, rfl⟩ := h.of_done
    exact ⟨List.forall_mem_nil _, fun outcome houtcome => (Option.some.inj houtcome).symm⟩
  | ok =>
    rcases h.of_prompt_ask (fun _ _ => rfl) with ⟨rfl, rfl⟩ | ⟨j, visit', s', _, rest, rfl, -, h⟩
    · exact ⟨List.forall_mem_nil _, fun outcome h => absurd h (Option.not_mem_none outcome)⟩
    · obtain ⟨rfl, rfl⟩ := h.of_done
      refine ⟨fun e he => ?_, fun outcome houtcome => (Option.some.inj houtcome).symm⟩
      rw [List.mem_singleton.mp he]
      exact ⟨level, text, rfl⟩

/-- **Every invocation** has come to one of these points. -/
theorem walk_invoke {q : Action (Result (Except ε α))}
    (hwalk : Walk (h.invoke d job.run) events q) :
    ∃ case?, Invocation h d job events case? q.result? := by
  rcases hwalk.of_bind with ⟨p, hp, hran, rfl⟩ | ⟨verdict, ran, later, rfl, hran, hsettle⟩
  · rw [Program.result?_bind_of_none hp]
    exact ⟨none, .runs hran hp⟩
  have hsettled : (later = [] ∧ q.result? = none) ∨
      ∃ e answer logged, later = e :: logged ∧
        sent? e = some ((⟨d, verdict, answer⟩ : Case ε α).sent h) ∧
        (∀ e ∈ logged, ∃ level text, e.request = .outside (.log level text)) ∧
        ∀ outcome ∈ q.result?, outcome = (⟨d, verdict, answer⟩ : Case ε α).outcome := by
    cases verdict with
    | ok a => exact walk_settlement hsettle rfl
    | error e => exact walk_settlement hsettle rfl
  rcases hsettled with ⟨rfl, hnone⟩ | ⟨e, answer, logged, rfl, hsent, hlogged, houtcome⟩
  · rw [hnone, List.append_nil]
    exact ⟨none, .judged hran⟩
  · exact ⟨some ⟨d, verdict, answer⟩, .settled rfl hran hsent hlogged houtcome⟩

/-- **It sends one call**, once its handler has run. -/
theorem Invocation.sends (hinvoked : Invocation h d job events case? outcome?) :
    events.filterMap sent? = (case?.map (Case.sent h)).toList := by
  cases hinvoked with
  | runs hran | judged hran => exact job.quiet hran
  | settled _ hran hsent hlogged =>
    have hsilent := filterMap_eq_nil fun e he => by
      obtain ⟨level, text, hlog⟩ := hlogged e he
      exact (quiet_of_plain (e := e) (hlog ▸ trivial)).2
    rw [List.filterMap_append, job.quiet hran, List.filterMap_cons, hsent, hsilent]
    rfl

/-- **It returns what its case says**: the verdict, or the error of the channel. -/
theorem Invocation.returns (hinvoked : Invocation h d job events case? outcome?) :
    (∀ x ∈ case?, x.delivery = d) ∧
      ∀ outcome ∈ outcome?, case?.map Case.outcome = some outcome := by
  cases hinvoked with
  | runs | judged => simp
  | settled hdelivery _ _ _ houtcome =>
    refine ⟨?_, fun outcome h => congrArg some (houtcome outcome h).symm⟩
    rintro x ⟨⟩
    exact hdelivery

/-! ## One step -/

/-- **What a step does**, by its events, the case that it has made of a delivery, and its
reply. -/
inductive Did (c : Consumer) (h : AcknowledgeHandler) (hand : List Delivery) :
    Step S ε α → Trace S → Option (Case ε α) → Option (Reply ε α) → Prop
  /-- It is about to take a delivery, or has taken it: it sends nothing, and returns what was
  taken. -/
  | takes {pace : Pace} {events : Trace S} {q : Action (Result (Option Delivery))} :
    Walk ((Taker.plain c).dequeue pace) events q → events.filterMap sent? = [] →
    (∀ found ∈ q.result?, events.filterMap taken? = found.toOption.join.toList) →
    Did c h hand (.take pace) events none (q.result?.map .took)
  /-- It has no delivery to handle. -/
  | idles {job : Job S ε α} : hand = [] → Did c h hand (.handle job) [] none (some .idle)
  /-- It handles the first delivery in hand. -/
  | handles {job : Job S ε α} {d : Delivery} {rest : List Delivery} {events : Trace S}
    {case? : Option (Case ε α)} {outcome? : Option (Result (Except ε α))} : hand = d :: rest →
    Invocation h d job events case? outcome? →
    Did c h hand (.handle job) events case? (outcome?.map .handled)

/-- A consumer that leaves deliveries to be settled does nothing to what was found. -/
theorem settle_manual {c : Consumer} (hmode : c.mode = .manual)
    (found : Result (Option Delivery)) : (Taker.plain c).settle found = .done found := by
  rcases found with e | _ | d
  · rfl
  · rfl
  · rw [settle_found, Consumer.onDequeued, hmode]
    rfl

/-- **To take a delivery sends nothing**, and returns what was taken. -/
theorem walk_take {c : Consumer} (hmode : c.mode = .manual) {pace : Pace}
    {q : Action (Result (Option Delivery))} (h : Walk ((Taker.plain c).dequeue pace) events q) :
    events.filterMap sent? = [] ∧
      ∀ found ∈ q.result?, events.filterMap taken? = found.toOption.join.toList := by
  rcases walk_removal h with ⟨hnone, hsent⟩ | ⟨e, -, visit, a, later, -, htaken, hsent, hlater⟩
  · exact ⟨hsent, by simp [hnone]⟩
  · rw [settle_manual hmode] at hlater
    obtain ⟨rfl, rfl⟩ := hlater.of_done
    refine ⟨hsent, ?_⟩
    rintro found ⟨⟩
    rw [htaken]
    exact List.append_nil _

/-- **Every step** does one of these. -/
theorem walk_step {c : Consumer} (hmode : c.mode = .manual) (h : AcknowledgeHandler)
    {hand : List Delivery} {step : Step S ε α} {q : Action (Reply ε α)}
    (hwalk : Walk (step.action c h hand) events q) :
    ∃ case?, Did c h hand step events case? q.result? := by
  match step, hand with
  | .take pace, hand =>
    obtain ⟨p, htake, hq⟩ := Walk.of_map (f := Reply.took) hwalk
    obtain ⟨hsent, htaken⟩ := walk_take hmode htake
    rw [hq]
    exact ⟨none, .takes htake hsent htaken⟩
  | .handle job, [] =>
    obtain ⟨rfl, rfl⟩ := hwalk.of_done
    exact ⟨none, .idles rfl⟩
  | .handle job, d :: rest =>
    obtain ⟨p, hinvoke, hq⟩ := Walk.of_map (f := Reply.handled) hwalk
    obtain ⟨case?, hinvoked⟩ := walk_invoke hinvoke
    rw [hq]
    exact ⟨case?, .handles rfl hinvoked⟩

/-! ## One step after another -/

/-- **The events of a worker, step by step**, with the cases that it has made of the
deliveries, and its replies. -/
inductive Course (c : Consumer) (h : AcknowledgeHandler) :
    List Delivery → List (Step S ε α) → Trace S → List (Case ε α) → List (Reply ε α) → Prop
  | waits (hand : List Delivery) (steps : List (Step S ε α)) : Course c h hand steps [] [] []
  | underWay {hand : List Delivery} {step : Step S ε α} {steps : List (Step S ε α)}
    {events : Trace S} {case? : Option (Case ε α)} : Did c h hand step events case? none →
    Course c h hand (step :: steps) events case?.toList []
  | returns {hand : List Delivery} {step : Step S ε α} {steps : List (Step S ε α)}
    {events later : Trace S} {case? : Option (Case ε α)} {reply : Reply ε α}
    {cases : List (Case ε α)} {replies : List (Reply ε α)} :
    Did c h hand step events case? (some reply) →
    Course c h (reply.hand hand) steps later cases replies →
    Course c h hand (step :: steps) (events ++ later) (case?.toList ++ cases) (reply :: replies)

/-- **A walk through the steps of a worker** is a course. -/
theorem course_of_walk {c : Consumer} (hmode : c.mode = .manual) (h : AcknowledgeHandler)
    {steps : List (Step S ε α)} :
    ∀ {hand : List Delivery} {events : Trace S} {q : Action (List (Reply ε α))},
      Walk (work c h hand steps) events q →
      ∃ cases replies, Course c h hand steps events cases replies ∧
        ∀ all, q.result? = some all → all = replies ∧ replies.length = steps.length := by
  -- induction on the steps, over any hand, which differs from step to step
  induction steps with
  | nil =>
    intro hand events q hwalk
    obtain ⟨rfl, rfl⟩ := hwalk.of_done
    exact ⟨[], [], .waits hand [], fun all hall => ⟨(Option.some.inj hall).symm, rfl⟩⟩
  | cons step steps ih =>
    intro hand events q hwalk
    rcases Walk.of_bind_cons (g := id) hwalk with ⟨p, hp, hstep, hq⟩ |
      ⟨reply, earlier, later, q', rfl, hstep, hlater, hq⟩
    · obtain ⟨case?, hdid⟩ := walk_step hmode h hstep
      rw [hp] at hdid
      exact ⟨_, [], .underWay hdid, fun all hall => by rw [hq] at hall; cases hall⟩
    · obtain ⟨case?, hdid⟩ := walk_step hmode h hstep
      obtain ⟨cases, replies, hcourse, hend⟩ := ih hlater
      refine ⟨_, _, .returns hdid hcourse, fun all hall => ?_⟩
      obtain ⟨rest, hrest, rfl⟩ := Option.map_eq_some_iff.mp (hq.symm.trans hall)
      obtain ⟨rfl, hlength⟩ := hend rest hrest
      exact ⟨rfl, congrArg Nat.succ hlength⟩

section Readings

variable {c : Consumer} {h : AcknowledgeHandler} {hand : List Delivery} {step : Step S ε α}
  {steps : List (Step S ε α)} {case? : Option (Case ε α)} {reply? : Option (Reply ε α)}
  {cases : List (Case ε α)} {replies : List (Reply ε α)}

/-- A step sends one call for its case, and nothing else. -/
theorem Did.sends (hdid : Did c h hand step events case? reply?) :
    events.filterMap sent? = (case?.map (Case.sent h)).toList := by
  cases hdid with
  | takes _ hsent => exact hsent
  | idles => rfl
  | handles _ hinvoked => exact hinvoked.sends

/-- It handles no delivery but the first one in hand. -/
theorem Did.handles_first (hdid : Did c h hand step events case? reply?) :
    case?.toList.map Case.delivery <+: hand := by
  cases hdid with
  | takes | idles => exact List.nil_prefix
  | handles hhand hinvoked =>
    subst hhand
    cases case? with
    | none => exact List.nil_prefix
    | some x =>
      obtain rfl := hinvoked.returns.1 x rfl
      exact List.prefix_append [x.delivery] _

/-- The verdict of its case is the one that its handler has come to. -/
theorem Did.judged (hdid : Did c h hand step events case? reply?) :
    ∀ x ∈ case?, ∃ job, step = .handle job ∧
      ∃ ran, ran <+: events ∧ Walk (job.run x.delivery) ran (.done x.verdict) := by
  intro x hx
  cases hdid with
  | takes | idles => cases hx
  | handles _ hinvoked =>
    cases hinvoked with
    | runs | judged => cases hx
    | settled hdelivery hran =>
      obtain rfl := Option.some.inj hx
      exact ⟨_, rfl, _, List.prefix_append _ _, hdelivery ▸ hran⟩

/-- **What a step returns**: what an invocation returns is what its case says, and no delivery
is lost between those that come to hand and those that are handled. -/
theorem Did.returns (hdid : Did c h hand step events case? reply?) {reply : Reply ε α}
    (hreply : reply? = some reply) :
    reply.outcome? = case?.map Case.outcome ∧
      case?.toList.map Case.delivery ++ reply.hand hand = hand ++ reply.deliveries := by
  cases hdid with
  | takes =>
    obtain ⟨found, -, rfl⟩ := Option.map_eq_some_iff.mp hreply
    exact ⟨rfl, rfl⟩
  | idles hhand =>
    obtain rfl := Option.some.inj hreply
    exact ⟨rfl, (List.append_nil hand).symm⟩
  | @handles job d rest _ _ _ hhand hinvoked =>
    obtain ⟨outcome, rfl, rfl⟩ := Option.map_eq_some_iff.mp hreply
    obtain ⟨hdelivery, houtcome⟩ := hinvoked.returns
    obtain ⟨x, rfl, rfl⟩ := Option.map_eq_some_iff.mp (houtcome outcome rfl)
    obtain rfl := hdelivery x rfl
    subst hhand
    exact ⟨rfl, (List.append_nil _).symm⟩

/-- **One call for each case**, in order. -/
theorem Course.log (hcourse : Course c h hand steps events cases replies) :
    events.filterMap sent? = cases.map (Case.sent h) := by
  induction hcourse with
  | waits => rfl
  | underWay hdid => rw [hdid.sends, Option.toList_map]
  | returns hdid _ ih =>
    rw [List.filterMap_append, hdid.sends, ih, Option.toList_map, List.map_append]

/-- **Deliveries are handled in the order in which they came to hand.** -/
theorem Course.inOrder (hcourse : Course c h hand steps events cases replies) :
    cases.map Case.delivery <+: hand ++ replies.flatMap Reply.deliveries := by
  induction hcourse with
  | waits => exact List.nil_prefix
  | underWay hdid => exact hdid.handles_first.trans (List.prefix_append _ _)
  | returns hdid _ ih =>
    rw [List.map_append, List.flatMap_cons, ← List.append_assoc, ← (hdid.returns rfl).2,
      List.append_assoc]
    exact (List.prefix_append_right_inj _).mpr ih

/-- Each invocation returns what its case says; one may not have returned yet. -/
theorem Course.outcomes (hcourse : Course c h hand steps events cases replies) :
    ∃ pending, cases.map Case.outcome = replies.filterMap Reply.outcome? ++ pending ∧
      pending.length ≤ 1 ∧ (replies.length = steps.length → pending = []) := by
  induction hcourse with
  | waits => exact ⟨[], rfl, Nat.zero_le _, fun _ => rfl⟩
  | @underWay _ _ _ _ case? _ =>
    refine ⟨case?.toList.map Case.outcome, rfl, ?_, nofun⟩
    cases case? <;> simp
  | returns hdid _ ih =>
    obtain ⟨pending, houtcomes, hone, hall⟩ := ih
    refine ⟨pending, ?_, hone, fun hlength => hall (Nat.succ.inj hlength)⟩
    rw [List.map_append, houtcomes, filterMap_cons_toList, (hdid.returns rfl).1, Option.toList_map,
      List.append_assoc]

/-- **The verdict of a case is that of a handler on the delivery**, which has run for it. -/
theorem Course.judged (hcourse : Course c h hand steps events cases replies) :
    ∀ x ∈ cases, ∃ job, Step.handle job ∈ steps ∧
      ∃ ran, ran <:+: events ∧ Walk (job.run x.delivery) ran (.done x.verdict) := by
  induction hcourse with
  | waits => exact fun x hx => absurd hx List.not_mem_nil
  | underWay hdid =>
    intro x hx
    obtain ⟨job, rfl, ran, hran, hwalk⟩ := hdid.judged x (Option.mem_toList.mp hx)
    exact ⟨job, List.mem_cons_self, ran, hran.isInfix, hwalk⟩
  | returns hdid _ ih =>
    refine List.forall_mem_append.mpr ⟨fun x hx => ?_, fun x hx => ?_⟩
    · obtain ⟨job, rfl, ran, hran, hwalk⟩ := hdid.judged x (Option.mem_toList.mp hx)
      exact ⟨job, List.mem_cons_self, ran,
        (hran.trans (List.prefix_append _ _)).isInfix, hwalk⟩
    · obtain ⟨job, hjob, ran, hran, hwalk⟩ := ih x hx
      exact ⟨job, List.mem_cons_of_mem _ hjob, ran,
        hran.trans (List.suffix_append _ _).isInfix, hwalk⟩

end Readings

end Walks

/-! ## Every run -/

/-- **What a worker has come to** at a point of a run: the cases that it has made of its
deliveries, and its replies. -/
structure Settles (worker : Worker S ε α) (i : Nat)
    (h : History interface (Setting S) (List (Reply ε α))) (cases : List (Case ε α))
    (replies : List (Reply ε α)) : Prop where
  /-- Its events are those of its steps: a handler runs once for each delivery, and then the
  delivery is settled. -/
  course : Course worker.consumer worker.handler worker.hand worker.steps (eventsOf i h.trace)
    cases replies
  /-- The verdicts are those of the handlers. -/
  judged : ∀ x ∈ cases, ∃ job, Step.handle job ∈ worker.steps ∧
    ∃ ran, ran <:+: eventsOf i h.trace ∧ Walk (job.run x.delivery) ran (.done x.verdict)
  /-- It sends one call for each case by its verdict, in order, whatever the answers. -/
  log : (eventsOf i h.trace).filterMap sent? = cases.map (Case.sent worker.handler)
  /-- There are no others if nobody else sends any. -/
  alone : (∀ e ∈ h.trace, e.thread ≠ i → sent? e = none) →
    h.trace.filterMap sent? = cases.map (Case.sent worker.handler)
  /-- The deliveries are handled in the order in which they came to hand. -/
  inOrder : cases.map Case.delivery <+: worker.hand ++ replies.flatMap Reply.deliveries
  /-- An invocation returns what its case says; one may not have returned yet. -/
  outcomes : ∃ pending, cases.map Case.outcome = replies.filterMap Reply.outcome? ++ pending ∧
    pending.length ≤ 1
  /-- Once the worker has ended all of them have returned. -/
  ended : ∀ all, h.machine.result? i = some all →
    all = replies ∧ replies.length = worker.steps.length ∧
      cases.map Case.outcome = replies.filterMap Reply.outcome?

/-- A step that does not wait: it takes a delivery if there is one, or its handler does not
wait. -/
def Step.IsPrompt : Step S ε α → Prop
  | .take pace => pace = .atOnce
  | .handle job => ∀ d, Prompt (Setting S) (job.run d)

theorem prompt_quick {β : Type} {p : Action β} (h : p.Asks Paces.Quick) : Prompt (Setting S) p := by
  refine .of_asks h fun r hr visit s => ?_
  obtain ⟨s', a, hserve⟩ := hr.answers visit s
  exact ⟨s', .nobody, a, hserve⟩

/-- A worker does not wait if its steps do not. -/
theorem prompt_work (c : Consumer) (h : AcknowledgeHandler) {steps : List (Step S ε α)}
    (hsteps : ∀ step ∈ steps, step.IsPrompt) :
    ∀ hand, Prompt (Setting S) (work c h hand steps) := by
  induction steps with
  | nil => exact fun hand => .done _
  | cons step steps ih =>
    rw [List.forall_mem_cons] at hsteps
    intro hand
    refine .bind ?_ fun reply => (ih hsteps.2 _).bind fun _ => .done _
    match step, hand with
    | .take pace, hand =>
      obtain rfl : pace = .atOnce := hsteps.1
      exact (prompt_quick (Paces.quick_dequeue (.plain c))).bind fun _ => .done _
    | .handle job, [] => exact .done _
    | .handle job, d :: rest =>
      have hsettle (verdict : Except ε α) : (h.settle d verdict).Asks Paces.Quick := by
        cases verdict <;>
          exact Paces.quick_andThen (.ask trivial .done) fun _ => .ask trivial fun _ => .done _
      exact ((hsteps.1 d).bind fun verdict => prompt_quick (hsettle verdict)).bind fun _ => .done _

/-- **What it means that deliveries are settled by the verdict of their handlers.** -/
structure SettlesByVerdict (S : Surroundings) (ε α : Type) : Prop where
  /-- Every worker settles so in every run, whatever other threads do. -/
  settles (s : Setting S) {threads : List (Action (List (Reply ε α)))} {i : Nat}
    {worker : Worker S ε α}
    (schedule : List (Machine.Move interface (List (Reply ε α)))) :
    threads[i]? = some worker.action →
    ∃ cases replies, Settles worker i ((Machine.start s threads).run schedule) cases replies
  /-- An invocation returns the verdict, as it is, if and only if the call succeeded. -/
  ok_iff (x : Case ε α) (verdict : Except ε α) :
    x.outcome = .ok verdict ↔ x.answer = .ok () ∧ verdict = x.verdict
  /-- Else it returns the error of the call. -/
  error_iff (x : Case ε α) (e : Error) : x.outcome = .error e ↔ x.answer = .error e
  /-- A worker whose steps do not wait can be brought to its end at every point. -/
  returns (s : Setting S) {threads : List (Action (List (Reply ε α)))} {i : Nat}
    {worker : Worker S ε α}
    (schedule : List (Machine.Move interface (List (Reply ε α)))) :
    threads[i]? = some worker.action → (∀ step ∈ worker.steps, step.IsPrompt) →
    ∃ more, ((((Machine.start s threads).run schedule).machine.run more).machine.result? i).isSome

/-- **Deliveries are settled by the verdict of their handlers.** -/
theorem settles_by_verdict (S : Surroundings) (ε α : Type) : SettlesByVerdict S ε α where
  settles s threads i worker schedule hi := by
    obtain ⟨q, hq, hwalk⟩ := Machine.walk (m := .start s threads) schedule
      (by rw [Machine.programs_start]; exact hi)
    obtain ⟨cases, replies, hcourse, hend⟩ := course_of_walk worker.manual worker.handler hwalk
    obtain ⟨pending, houtcomes, hone, hall⟩ := hcourse.outcomes
    refine ⟨cases, replies, hcourse, hcourse.judged, hcourse.log, fun hothers => ?_,
      hcourse.inOrder, ⟨pending, houtcomes, hone⟩, fun all hresult => ?_⟩
    · rw [filterMap_eq_of_others hothers]
      exact hcourse.log
    · rw [Machine.result?_eq hq] at hresult
      obtain ⟨rfl, hlength⟩ := hend all hresult
      rw [hall hlength, List.append_nil] at houtcomes
      exact ⟨rfl, hlength, houtcomes⟩
  ok_iff _ _ := Case.outcome_eq_ok
  error_iff _ _ := Case.outcome_eq_error
  returns s threads i worker schedule hi hsteps :=
    Machine.returns (by rw [Machine.programs_start]; exact hi)
      (prompt_work worker.consumer worker.handler hsteps worker.hand) schedule

/-- The channel fails on the rejection of the first delivery, whose verdict is not returned;
the second one is acknowledged all the same. -/
example :
    let failing : Surroundings :=
      { (default : Surroundings) with
        answer := fun turn call => match call with
          | .channel _ _ => if turn = 0 then .error .queueClosed else .ok ()
          | .log _ _ => () }
    let job : Job failing String Nat :=
      .ofFunction fun d => if d.tag = 7 then .error "no" else .ok 3
    let brought (tag : UInt64) : Delivery := { (default : Delivery) with tag }
    let worker : Worker failing String Nat :=
      { consumer := ⟨0, 0, 0, .manual⟩, manual := rfl, handler := ⟨3, false⟩,
        hand := [brought 7, brought 8], steps := [.handle job, .handle job, .handle job] }
    let h := (Machine.start (⟨{}, 0⟩ : Setting failing) [worker.action]).run
      (List.replicate 3 (.advance .longest 0))
    h.trace.filterMap sent? =
        [⟨3, .reject 7 false, .error .queueClosed⟩, ⟨3, .acknowledge 8, .ok ()⟩] ∧
      h.machine.result? 0 = some [.handled (.error .queueClosed), .handled (.ok (.ok 3)), .idle] :=
  ⟨rfl, rfl⟩

end MessageIntake.Handled
