import MessageIntake.Proofs.Consumer.Ending

/-!
# The end of a subscription

Any number of threads receive from a subscriber, report to its consumer
what the broker says, and cancel it. Whoever is told that the
subscription has ended is told so after the consumer was canceled and the
queue drained, and everybody is told the same: that it ended with a fault
if and only if the last loss of the transport that counted was one
(`ends_for_good`).

A thread of a run makes one call. A caller that makes several, one after
another, is several threads that are moved in this order.
-/

namespace MessageIntake.Ending

open Client Lifespan

variable {R : Reactions} {c : Consumer}

/-! ## What is read off an event -/

/-- The reason of a lifecycle is that of the last loss that counts. -/
theorem shutdownReason_serve (i : Nat) (visit : Visit) (s : Scene R) (r : Request) :
    ((Server.serve (I := interface) visit s r).state.lifecycle c.lifecycle).shutdownReason =
      (lost? c (.of i visit s r)).or (s.lifecycle c.lifecycle).shutdownReason := by
  by_cases hr : ∃ part, r = .under (.lifecycle c.lifecycle part)
  · obtain ⟨part, rfl⟩ := hr
    rw [lifecycle_serve, lost?, step?_of_section, Lifecycle.shutdownReason_run _ _ i]
    rfl
  · have hother : ∀ part, r ≠ .under (.lifecycle c.lifecycle part) := fun part h => hr ⟨part, h⟩
    rw [lifecycle_eq_of_ne hother, lost?, step?_eq_none hother]
    rfl

/-- No loss counts once the consumer is canceled. -/
theorem lost?_of_canceled {s : Scene R} (h : (s.lifecycle c.lifecycle).state = .canceled) (i : Nat)
    (visit : Visit) (r : Request) : lost? c (.of (I := interface) i visit s r) = none := by
  by_cases hr : ∃ part, r = .under (.lifecycle c.lifecycle part)
  · obtain ⟨part, rfl⟩ := hr
    rw [lost?, step?_of_section, Option.bind_some, Lifecycle.lost?_of_canceled h]
  · rw [lost?, step?_eq_none fun part hpart => hr ⟨part, hpart⟩]
    rfl

/-- A call of a queue is answered as its pass says. -/
theorem answer_serve_queue (visit : Visit) (s : Scene R) (id : QueueId)
    (call : Queue.Call Delivery) :
    (Server.serve (I := interface) visit s (.under (.queue id call))).answer? =
      ((s.queue id).pass visit call).turn.answer? := by
  simp only [Server.serve, World.serve, Queue.Pass.served, Scene.queue]
  split <;> rename_i hturn <;> rw [hturn] <;> rfl

/-- A dequeue is refused at the end of the stream. -/
theorem drained_of_refusal {visit : Visit} {s s' : Scene R} {id : QueueId} {timeout : Timeout}
    {signal : Signal} {e : Error}
    (h : Server.serve (I := interface) visit s (.under (.queue id (.dequeueTimeout timeout))) =
      .answers s' signal (.error e)) : s.queue id = ⟨[], false⟩ := by
  have hfailure : Queue.outcome? (.of (I := Queue.interface Delivery) 0 visit (s.queue id)
      (.dequeueTimeout timeout)) = some (.error e) := by
    rw [Queue.event_of, ← answer_serve_queue, h]
    rfl
  exact (Queue.before_of_failure hfailure).2

/-! ## The invariant -/

/-- **What is known of a subscription**, by the events so far. -/
structure Informed (c : Consumer) (tr : List (Event interface (Scene R))) (s : Scene R)
    (gs : List Insight) : Prop where
  holds : ∀ g ∈ gs, g.Holds (s.lifecycle c.lifecycle) (s.queue c.queue)
  canceled : (s.queue c.queue).isOpen = false → (s.lifecycle c.lifecycle).state = .canceled
  reason : (tr.filterMap (lost? c)).getLast? = (s.lifecycle c.lifecycle).shutdownReason
  counted : ∀ e ∈ tr, (lost? c e).isSome → (e.before.lifecycle c.lifecycle).state ≠ .canceled

section Informed

variable {tr : List (Event interface (Scene R))} {s : Scene R} {gs : List Insight} {i : Nat}
variable {g g' : Insight}

/-- **The queue is closed after the consumer is canceled**, whatever is
served. -/
theorem Informed.canceled_serve (h : Informed c tr s gs) (hg : g ∈ gs) (visit : Visit)
    {r : Request} (hpermit : (ending c).Permits g r)
    (hclosed : ((Server.serve (I := interface) visit s r).state.queue c.queue).isOpen = false) :
    ((Server.serve (I := interface) visit s r).state.lifecycle c.lifecycle).state = .canceled := by
  have hbefore : (s.lifecycle c.lifecycle).state = .canceled := by
    rcases queue_serve_cases visit s r c.queue with hsame | ⟨call, rfl, hpass⟩
    · exact h.canceled (hsame ▸ hclosed)
    · by_cases hcall : call = .close
      · subst hcall
        -- who closes it knows that the consumer is canceled
        exact (h.holds g hg).canceled (hpermit rfl)
      · refine h.canceled (Bool.eq_false_iff.mpr fun hopen => ?_)
        have hafter : (Event.of (I := Queue.interface Delivery) 0 visit (s.queue c.queue)
            call).after.isOpen := Queue.isOpen_after.mpr ⟨hopen, hcall⟩
        rw [Queue.event_of, ← hpass, hclosed] at hafter
        cases hafter
  rw [lifecycle_serve_of_canceled visit s r hbefore, hbefore]

/-- **Serving a request keeps what is known**, if the note of the thread says
what is so. -/
theorem Informed.serve (h : Informed c tr s gs) (hg : gs[i]? = some g) (visit : Visit)
    {r : Request} (hpermit : (ending c).Permits g r)
    (hg' : g'.Holds ((Server.serve (I := interface) visit s r).state.lifecycle c.lifecycle)
      ((Server.serve (I := interface) visit s r).state.queue c.queue)) :
    Informed c (tr ++ [.of i visit s r]) (Server.serve (I := interface) visit s r).state
      (gs.set i g') where
  holds g'' hmem := by
    rcases List.mem_or_eq_of_mem_set hmem with hmem | rfl
    · exact (h.holds g'' hmem).serve visit r
    · exact hg'
  canceled := h.canceled_serve (List.mem_of_getElem? hg) visit hpermit
  reason := by
    rw [filterMap_concat, shutdownReason_serve i, ← h.reason]
    cases lost? c (.of i visit s r) <;> simp
  counted := by
    refine List.forall_mem_append.mpr ⟨h.counted, List.forall_mem_singleton.mpr ?_⟩
    intro hlost hcanceled
    have hnone : lost? c (.of i visit s r) = none := lost?_of_canceled hcanceled i visit r
    rw [hnone] at hlost
    cases hlost

/-- A request that tells nothing new. -/
theorem Informed.quiet (h : Informed c tr s gs) (hg : gs[i]? = some g) (visit : Visit)
    {r : Request} (hpermit : (ending c).Permits g r) :
    Informed c (tr ++ [.of i visit s r]) (Server.serve (I := interface) visit s r).state gs := by
  have hserve := h.serve hg visit hpermit ((h.holds g (List.mem_of_getElem? hg)).serve visit r)
  rwa [set_eq_self hg] at hserve

/-- **What an answer tells is so.** -/
theorem Informed.leads (h : Informed c tr s gs) (hg : g ∈ gs) {visit : Visit} {r : Request}
    {s' : Scene R} {signal : Signal} {a : r.Answer}
    (hserve : Server.serve (I := interface) visit s r = .answers s' signal a) :
    ∃ g', (ending c).Leads g r a g' ∧ g'.Holds (s'.lifecycle c.lifecycle) (s'.queue c.queue) := by
  obtain rfl : s' = (Server.serve (I := interface) visit s r).state := by rw [hserve]; rfl
  have hstays := (h.holds g hg).serve visit r
  match r with
  | .under (.lifecycle id part) =>
    obtain rfl : ((s.lifecycle id).run part).2 = a := by cases hserve; rfl
    cases part with
    | cancel =>
      refine ⟨_, rfl, ?_⟩
      by_cases hid : id = c.lifecycle
      · subst hid
        rw [if_pos rfl]
        refine ⟨fun _ => ?_, hstays.final⟩
        rw [lifecycle_serve]
        rfl
      · rw [if_neg hid]
        exact hstays
    | look =>
      refine ⟨g, ⟨rfl, ?_⟩, hstays⟩
      rintro rfl l hfinal
      exact ((h.holds g hg).final l hfinal).1.symm
    | start | requestCancel | loseTransport => exact ⟨g, rfl, hstays⟩
  | .under (.queue id call) =>
    cases call with
    | dequeueTimeout timeout =>
      cases a with
      | ok d? => exact ⟨g, rfl, hstays⟩
      | error e =>
        by_cases hid : id = c.queue
        · subst hid
          -- the queue is closed, so the consumer was canceled before, and this is final
          have hdrained := drained_of_refusal hserve
          have hcanceled := h.canceled (by rw [hdrained])
          refine ⟨{ g with final := some (s.lifecycle c.lifecycle) }, fun _ => rfl,
            hstays.canceled, ?_⟩
          rintro l ⟨⟩
          rw [lifecycle_serve_of_canceled visit s _ hcanceled]
          exact ⟨rfl, hcanceled, queue_serve_of_drained visit s _ hdrained⟩
        · exact ⟨g, fun h => absurd h hid, hstays⟩
    | enqueue | dequeue | tryDequeue | dequeueNoWait | waitForMessage | close | look =>
      exact ⟨g, rfl, hstays⟩
  | .under (.transaction id part) =>
    refine ⟨g, ⟨rfl, s.world.transactions.get id, ?_⟩, hstays⟩
    cases hserve
    rfl
  | .under .newFlag | .under (.settle _) | .outside (.log _ _) => exact ⟨g, rfl, hstays⟩
  | .outside (.channel _ _) | .notify (.delivery _) _ | .notify (.other _) _ => cases hserve

end Informed

/-! ## Every run -/

/-- Channels and participants that close the queue of a consumer by ending the
consumer only; what a channel answers is among `Answers`. While they are called
they may use the client in any other way. -/
structure Attendants (c : Consumer) (Answers : Result Unit → Prop) extends Reactions where
  channel_attends : ∀ turn id call, Attends c Answers (channel turn id call)
  participant_attends : ∀ turn id notice, Silent c (participant turn id notice)

variable {Answers : Result Unit → Prop}

/-- Those that do nothing, and never fail. -/
def Attendants.succeeding (h : Answers (.ok ())) : Attendants c Answers where
  channel _ _ _ := .done (.ok ())
  participant _ _ _ := .done (.ok ())
  channel_attends _ _ _ := .done h
  participant_attends _ _ _ := .done trivial

/-- What runs for a request. -/
def Attended (c : Consumer) (Answers : Result Unit → Prop) : (r : Request) → Action r.Answer → Prop
  | .outside (.channel _ _), p => Attends c Answers p
  | .notify _ _, p => Silent c p
  | .under _, _ | .outside (.log _ _), _ => False

theorem attended_of_runs {A : Attendants c Answers} {visit : Visit}
    {s s' : Scene A.toReactions} {r : Request} {p : Action r.Answer}
    (h : Server.serve (I := interface) visit s r = .runs s' p) : Attended c Answers r p := by
  match r with
  | .outside (.channel id call) =>
    obtain rfl : A.channel s.turn id call = p := by cases h; rfl
    exact A.channel_attends _ _ _
  | .notify (.delivery e) notice =>
    obtain rfl : e.notify notice = p := by cases h; rfl
    exact Enlistment.silent e notice
  | .notify (.other id) notice =>
    obtain rfl : A.participant s.turn id notice = p := by cases h; rfl
    exact A.participant_attends _ _ _
  | .under (.queue id call) =>
    simp only [Server.serve, World.serve, Queue.Pass.served] at h
    split at h <;> cases h
  | .under (.lifecycle _ _) | .under (.transaction _ _) | .under .newFlag | .under (.settle _)
  | .outside (.log _ _) => cases h

variable {A : Attendants c (· ≠ .error .queueClosed)}

/-- **The discipline upholds what is known.** -/
theorem ending_upholds : (ending c).Upholds (fun _ _ => True)
    (fun tr (s : Scene A.toReactions) gs => Informed c tr s gs) where
  answers := by
    intro tr s s' gs i g visit r signal a h _ hg hpermit hserve _
    obtain ⟨g', hlead, hholds⟩ := h.leads (List.mem_of_getElem? hg) hserve
    have hafter : g'.Holds ((Server.serve (I := interface) visit s r).state.lifecycle c.lifecycle)
        ((Server.serve (I := interface) visit s r).state.queue c.queue) := by
      rw [hserve]
      exact hholds
    have hinv := h.serve hg visit hpermit hafter
    rw [Event.of, hserve] at hinv
    exact ⟨g', hlead, hinv⟩
  sleeps := by
    intro tr s s' gs i g visit r cond deadline h _ hg hpermit hserve _
    have hinv := h.quiet hg visit hpermit
    rwa [Event.of, hserve] at hinv
  runs := by
    intro tr s s' gs i g visit r p h _ hg hpermit hserve _
    have hinv := h.quiet hg visit hpermit
    rw [Event.of, hserve] at hinv
    refine ⟨g, by rw [set_eq_self hg]; exact hinv, ?_⟩
    have hattended := attended_of_runs hserve
    cases r with
    | under => exact hattended.elim
    | notify => exact hattended.follows g
    | outside call =>
      cases call with
      | channel => exact hattended.follows g
      | log => exact hattended.elim

/-- What a thread does with a subscriber. -/
inductive Act (s : Subscriber) where
  | receive (t? : Option TransactionId)
  | callback (report : Callback)
  | cancel
  /-- Anything else that closes the queue by ending the consumer only, such as
  to complete a transaction. -/
  | other (program : Action Unit) (silent : Silent s.consumer program)

/-- The program of a thread, with the result of its receive call. -/
def Act.program {s : Subscriber} : Act s → Action (Option (Result Received))
  | .receive t? => (s.receive t?).bind fun r => .done (some r)
  | .callback report => (report.on s.basicConsumer).bind fun _ => .done none
  | .cancel => s.cancel.bind fun _ => .done none
  | .other program _ => program.bind fun _ => .done none

/-- A receive call that has returned reports the end as it has seen it. -/
def Reported (r? : Option (Result Received)) (g : Insight) : Prop := ∀ r ∈ r?, Reports r g

theorem reported_none {g : Insight} : Reported none g := by
  rintro r ⟨⟩

theorem Act.follows {s : Subscriber} (act : Act s) (g : Insight) :
    act.program.Follows (ending s.consumer) Reported g := by
  have hsilent : ∀ {α : Type} {p : Action α}, Silent s.consumer p →
      (p.bind fun _ => .done (none : Option (Result Received))).Follows (ending s.consumer)
        Reported g :=
    fun h => (h.follows g).bind fun _ _ _ => reported_none
  cases act with
  | receive t? =>
    refine (receive_follows s t? g).bind fun r g' hr r' hr' => ?_
    obtain rfl := Option.some_inj.mp hr'
    exact hr
  | callback report =>
    rw [program, Subscriber.basicConsumer_eq]
    exact hsilent (callback_silent report)
  | cancel =>
    rw [program, Subscriber.cancel_eq]
    exact hsilent cancel_silent
  | other program silent => exact hsilent silent

/-- A run of threads with a new subscriber, whose queue is its own; the other
objects are as they may be. -/
def runSubscription {s : Subscriber} (A : Attendants s.consumer (· ≠ .error .queueClosed))
    (w : World) (acts : List (Act s))
    (schedule : List (Machine.Move interface (Option (Result Received)))) :
    History interface (Scene A.toReactions) (Option (Result Received)) :=
  (Machine.start
    (.renewed s.consumer.lifecycle { w with queues := w.queues.set s.consumer.queue .empty })
    (acts.map Act.program)).run schedule

/-- **Every run is informed**, and every thread that has returned reports the
end as it has seen it. -/
theorem run_informed {s : Subscriber} (A : Attendants s.consumer (· ≠ .error .queueClosed))
    (w : World) (acts : List (Act s))
    (schedule : List (Machine.Move interface (Option (Result Received)))) :
    ∃ gs, Informed s.consumer (runSubscription A w acts schedule).trace
        (runSubscription A w acts schedule).machine.shared gs ∧
      Follow (ending s.consumer) (fun _ => Reported)
        (runSubscription A w acts schedule).machine.programs gs := by
  have hopen : ((Scene.renewed s.consumer.lifecycle
      { w with queues := w.queues.set s.consumer.queue .empty } :
        Scene A.toReactions).queue s.consumer.queue) = .empty := Store.get_set_self _ _ _
  have hstart : Informed s.consumer [] (.renewed s.consumer.lifecycle
      { w with queues := w.queues.set s.consumer.queue .empty } : Scene A.toReactions)
      (List.replicate acts.length {}) := by
    refine ⟨fun g hg => ?_, fun hclosed => ?_, ?_, by simp⟩
    · rw [List.eq_of_mem_replicate hg]
      exact ⟨nofun, nofun⟩
    · rw [hopen] at hclosed
      cases hclosed
    · rw [Scene.lifecycle_renewed]
      rfl
  have hfollow : Follow (ending s.consumer) (fun _ => Reported) (acts.map Act.program)
      (List.replicate acts.length {}) := by
    refine ⟨by simp, fun {i p} hp => ?_⟩
    rw [List.getElem?_map, Option.map_eq_some_iff] at hp
    obtain ⟨act, hact, rfl⟩ := hp
    have hi : i < acts.length := (List.getElem?_eq_some_iff.mp hact).1
    exact ⟨{}, by simp [hi], act.follows _⟩
  exact ending_upholds.run hstart hfollow (fun _ => trivial) schedule

/-- **What it means that a subscription ends for good** in a run. -/
structure EndsForGood (s : Subscriber)
    (h : History interface (Scene R) (Option (Result Received))) : Prop where
  /-- The end is reported only after the consumer was canceled and its queue
  drained. -/
  closed : ∀ i faulted, h.machine.result? i = some (some (.ok (.closed faulted))) →
    (h.machine.shared.lifecycle s.consumer.lifecycle).state = .canceled ∧
      h.machine.shared.queue s.consumer.queue = ⟨[], false⟩
  /-- All reports are the same. -/
  agree : ∀ i j faulted faulted',
    h.machine.result? i = some (some (.ok (.closed faulted))) →
    h.machine.result? j = some (some (.ok (.closed faulted'))) → faulted = faulted'
  /-- They say that there was a fault if and only if the last loss of the
  transport that counted was one. -/
  faulted : ∀ i faulted, h.machine.result? i = some (some (.ok (.closed faulted))) →
    (faulted = true ↔ ∃ reason, (h.trace.filterMap (lost? s.consumer)).getLast? = some reason ∧
      reason.code ≠ ShutdownReason.success)
  /-- A loss counts only before the consumer is canceled. -/
  counted : ∀ e ∈ h.trace, (lost? s.consumer e).isSome →
    (e.before.lifecycle s.consumer.lifecycle).state ≠ .canceled

/-- **A subscription ends for good**, whatever its mode, the calls of the
threads, the channels and the schedule are. -/
theorem ends_for_good {s : Subscriber} (A : Attendants s.consumer (· ≠ .error .queueClosed))
    (w : World)
    (acts : List (Act s)) (schedule : List (Machine.Move interface (Option (Result Received)))) :
    EndsForGood s (runSubscription A w acts schedule) := by
  obtain ⟨gs, hinformed, hfollow⟩ := run_informed A w acts schedule
  have hreport : ∀ i faulted,
      (runSubscription A w acts schedule).machine.result? i = some (some (.ok (.closed faulted))) →
      ((runSubscription A w acts schedule).machine.shared.lifecycle
          s.consumer.lifecycle).state = .canceled ∧
        (runSubscription A w acts schedule).machine.shared.queue s.consumer.queue = ⟨[], false⟩ ∧
        faulted = ((runSubscription A w acts schedule).machine.shared.lifecycle
          s.consumer.lifecycle).faulted := by
    intro i faulted hresult
    obtain ⟨g, hg, hreported⟩ := hfollow.result hresult
    obtain ⟨l, hfinal, rfl⟩ := hreported _ rfl faulted rfl
    have hholds := hinformed.holds g (List.mem_of_getElem? hg)
    obtain ⟨rfl, hcanceled, hdrained⟩ := hholds.final l hfinal
    exact ⟨hcanceled, hdrained, rfl⟩
  refine
    { closed := fun i faulted hresult => ?_
      agree := fun i j faulted faulted' hi hj => ?_
      faulted := fun i faulted hresult => ?_
      counted := hinformed.counted }
  · obtain ⟨hcanceled, hdrained, -⟩ := hreport i faulted hresult
    exact ⟨hcanceled, hdrained⟩
  · obtain ⟨-, -, hfaulted⟩ := hreport i faulted hi
    obtain ⟨-, -, hfaulted'⟩ := hreport j faulted' hj
    rw [hfaulted, hfaulted']
  · obtain ⟨-, -, rfl⟩ := hreport i faulted hresult
    rw [Lifecycle.faulted_iff, hinformed.reason]

/-- The broker goes away while a call waits, and a clean close comes too late
to matter. -/
example :
    let s : Subscriber := ⟨⟨0, 0, 0, .manual⟩, .infinite⟩
    let lost : ShutdownReason := ⟨.peer, 320, "CONNECTION_FORCED"⟩
    let h := runSubscription (s := s) (.succeeding nofun) {}
      [.callback (.shutdown lost), .callback (.shutdown .application), .receive none]
      (.advance .longest 2 :: List.replicate 6 (.advance .longest 0) ++
        .advance .longest 1 :: List.replicate 3 (.advance .longest 2))
    h.machine.result? 2 = some (some (.ok (.closed true))) := by
  rfl

end MessageIntake.Ending
