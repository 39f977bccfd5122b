import MessageIntake.Proofs.Consumer.Acknowledgment
import MessageIntake.Proofs.Queue.EndOfStream

/-!
# What a receive call reports

A subscriber's receive call takes a delivery by its mode and settles it,
or hands it back if the transaction does not take it. Whatever it finds,
whatever the other threads do and whatever the channel answers, it
reports the end of the subscription only if it found the queue closed
and without items, and it returns the error of a settlement that failed
(`reports`). The exception is the error of a closed queue as an answer
of the channel: this is taken for the end of the subscription
(`not_reports`).

`Telling` says what a program makes of such errors, and is passed from
the parts of a program to the whole.
-/

namespace MessageIntake.Reception

open Client Settlement Source Acknowledgment

variable {S : Surroundings} {s : Subscriber} {α β : Type}

/-- The error that the call to settle a delivery is answered with. -/
def failure? (e : Event interface (Setting S)) : Option Error :=
  (sent? e).bind Sent.error?

/-- The dequeue of a receive call finds the queue closed and without
items. -/
def FindsDrained (s : Subscriber) (e : Event interface (Setting S)) : Prop :=
  e.request = Request.under (.queue s.consumer.queue (.dequeueTimeout s.receiveTimeout)) ∧
    e.before.world.queues.get s.consumer.queue = ⟨[], false⟩

/-- **What a receive call reports**, by its events and, once it has
returned, its result. An error of a settlement that is `Mistaken` is
taken for the end of the subscription. -/
structure Reports (Mistaken : Error → Prop) (s : Subscriber) (events : Trace S)
    (result? : Option (Result Received)) : Prop where
  /-- The subscription is reported as closed only if its queue was found so,
  and without items. -/
  closed : ∀ faulted, result? = some (.ok (.closed faulted)) →
    ∃ e ∈ events, FindsDrained s e ∨ ∃ err, failure? e = some err ∧ Mistaken err
  /-- When a settlement has failed, the call returns its error. -/
  returned : ∀ e ∈ events, ∀ err, failure? e = some err → ¬ Mistaken err →
    result? = some (.error err)
  /-- An error that is mistaken is not returned. -/
  mistaken : ∀ e ∈ events, ∀ err, failure? e = some err → Mistaken err →
    ∀ r, result? = some r → ∃ faulted, r = .ok (.closed faulted)

/-! ## What becomes of errors -/

/-- **What a program makes of errors**: it ends with the error of a closed
queue only if it found the queue so, or had it from a settlement, and the
error of a settlement is its result. -/
structure Tells (s : Subscriber) (events : Trace S) (result? : Option (Result α)) : Prop where
  refusal : result? = some (.error .queueClosed) →
    ∃ e ∈ events, FindsDrained s e ∨ failure? e = some .queueClosed
  failed : ∀ e ∈ events, ∀ err, failure? e = some err → result? = some (.error err)

/-- Every walk of a program tells. -/
def Telling (S : Surroundings) (s : Subscriber) (p : Action (Result α)) : Prop :=
  ∀ (events : Trace S) q, Walk p events q → Tells s events q.result?

namespace Telling

theorem done {r : Result α} (h : r ≠ .error .queueClosed) : Telling S s (.done r) := by
  intro events q hwalk
  obtain ⟨rfl, rfl⟩ := hwalk.of_done
  exact ⟨fun hr => absurd (Option.some_inj.mp hr) h, by simp⟩

/-- After a request that settles nothing and is answered at once. -/
theorem ask {r : Request} {next : r.Answer → Action (Result α)}
    (hnow : ∀ visit (s : Setting S),
      ((Server.serve (I := interface) visit s r).answer?).isSome)
    (hquiet : ∀ i (s : Setting S) answer s',
      failure? (⟨i, s, r, answer, s'⟩ : Event interface (Setting S)) = none)
    (hnext : ∀ visit (s' : Setting S) a,
      (Server.serve (I := interface) visit s' r).answer? = some a → Telling S s (next a)) :
    Telling S s (.ask r next) := by
  intro events q hwalk
  rcases hwalk.of_prompt_ask hnow with ⟨rfl, rfl⟩ | ⟨i, visit, s', a, later, rfl, ha, hlater⟩
  · exact ⟨by rintro ⟨⟩, by simp⟩
  · obtain ⟨hrefusal, hfailed⟩ := hnext visit s' a ha later q hlater
    refine ⟨fun hr => ?_, fun e he err herr => ?_⟩
    · obtain ⟨e, he, hfound⟩ := hrefusal hr
      exact ⟨e, List.mem_cons_of_mem _ he, hfound⟩
    · rcases List.mem_cons.mp he with rfl | he
      · rw [Event.of, hquiet] at herr
        cases herr
      · exact hfailed e he err herr

/-- A program that goes on after success only. -/
theorem andThen {action : Action (Result α)} {next : α → Action (Result β)}
    (haction : Telling S s action) (hnext : ∀ a, Telling S s (next a)) :
    Telling S s (action.andThen next) := by
  intro events q hwalk
  rcases Walk.of_bind hwalk with ⟨p, hp, hfirst, rfl⟩ | ⟨r, earlier, later, rfl, hfirst, hrest⟩
  · rw [Program.result?_bind_of_none hp]
    refine ⟨by rintro ⟨⟩, fun e he err herr => ?_⟩
    have hfailed := (haction events p hfirst).failed e he err herr
    rw [hp] at hfailed
    cases hfailed
  · have htells := haction earlier _ hfirst
    cases r with
    | error err =>
      obtain ⟨rfl, rfl⟩ := hrest.of_done
      rw [List.append_nil]
      refine ⟨fun hr => htells.refusal ?_, fun e he err' herr' => ?_⟩
      · obtain rfl : err = .queueClosed := by simpa [Program.result?] using hr
        rfl
      · have hfailed := htells.failed e he err' herr'
        obtain rfl : err = err' := by simpa [Program.result?] using hfailed
        rfl
    | ok a =>
      obtain ⟨hrefusal, hfailed⟩ := hnext a later q hrest
      refine ⟨fun hr => ?_, fun e he err herr => ?_⟩
      · obtain ⟨e, he, hfound⟩ := hrefusal hr
        exact ⟨e, List.mem_append_right _ he, hfound⟩
      · rcases List.mem_append.mp he with he | he
        · have hfailed' := htells.failed e he err herr
          cases hfailed'
        · exact hfailed e he err herr

/-- A call that settles a delivery tells what it is answered with. -/
theorem channel (id : ChannelId) {call : Channel.Call} (hcall : call.settles) :
    Telling S s (Client.channel id call) := by
  intro events q hwalk
  rcases hwalk.of_prompt_ask (fun _ _ => rfl) with ⟨rfl, rfl⟩ |
    ⟨i, visit, s', answer, later, rfl, ha, hlater⟩
  · exact ⟨by rintro ⟨⟩, by simp⟩
  · obtain ⟨rfl, rfl⟩ := hlater.of_done
    have hfailure : failure? (Event.of (I := interface) i visit s'
        (.outside (.channel id call))) = Sent.error? ⟨id, call, answer⟩ := by
      simp only [failure?, Event.of, sent?, ha, hcall, if_true, Option.bind_some]
    cases answer with
    | ok =>
      refine ⟨by rintro ⟨⟩, fun e he err herr => ?_⟩
      rw [List.mem_singleton.mp he, hfailure] at herr
      cases herr
    | error err =>
      refine ⟨fun hr => ⟨_, List.mem_singleton_self _, .inr ?_⟩, fun e he err' herr => ?_⟩
      · obtain rfl : err = .queueClosed := by simpa [Program.result?] using hr
        exact hfailure
      · rw [List.mem_singleton.mp he, hfailure] at herr
        rw [← Option.some_inj.mp herr]
        rfl

/-- The dequeue of a receive call fails only on a closed queue without
items. -/
theorem dequeue (s : Subscriber) :
    Telling S s (Client.queue s.consumer.queue (.dequeueTimeout s.receiveTimeout)) := by
  intro events q hwalk
  rcases hwalk.of_ask (Request.Elsewhere.serve_ne_runs (t := 0)
      (r := .under (.queue s.consumer.queue (.dequeueTimeout s.receiveTimeout))) trivial) with
    ⟨rfl, hwaits⟩ | ⟨asleep, i, visit, s', a, later, rfl, hasleep, ha, hlater⟩
  · refine ⟨by rintro ⟨⟩, fun e he err herr => ?_⟩
    obtain ⟨i, visit, s', rfl, -⟩ := hwaits e he
    cases herr
  · obtain ⟨rfl, rfl⟩ := hlater.of_done
    refine ⟨fun hr => ?_, fun e he err herr => ?_⟩
    · obtain rfl : a = .error .queueClosed := Option.some_inj.mp hr
      refine ⟨_, List.mem_append_right _ (List.mem_singleton_self _), .inl ⟨rfl, ?_⟩⟩
      have hfailure : Queue.outcome? (.of (I := Queue.interface Delivery) i visit
          (s'.world.queues.get s.consumer.queue) (.dequeueTimeout s.receiveTimeout)) =
            some (.error .queueClosed) := by
        rw [Queue.event_of, ← (serve_queue visit s' _ _).1, ha]
        rfl
      exact (Queue.before_of_failure hfailure).2
    · rcases List.mem_append.mp he with he | he
      · obtain ⟨j, visit', s'', rfl, -⟩ := hasleep e he
        cases herr
      · rw [List.mem_singleton.mp he] at herr
        cases herr

/-- What the mode does to the delivery that was taken. -/
theorem onDequeued (c : Consumer) (d : Delivery) : Telling S s (c.onDequeued d) := by
  unfold Consumer.onDequeued
  cases c.mode with
  | auto =>
    exact ask (fun _ _ => rfl) (fun _ _ _ _ => rfl) fun _ _ _ _ => channel c.channel rfl
  | manual | transactional => exact done (by rintro ⟨⟩)

theorem settleDequeued (c : Consumer) (d? : Option Delivery) :
    Telling S s (c.settleDequeued d?) := by
  cases d? with
  | none => exact done (by rintro ⟨⟩)
  | some d => exact (onDequeued c d).andThen fun _ => done (by rintro ⟨⟩)

/-- A dequeue of the consumer. -/
theorem dequeueTimeout (s : Subscriber) :
    Telling S s (s.consumer.dequeueTimeout s.receiveTimeout) :=
  (dequeue s).andThen (settleDequeued s.consumer)

/-- Whether a transaction takes part is answered at once; if it refuses, it
is with an error of its own. -/
theorem transaction {t : TransactionId} {part : Transaction.Section}
    {next : part.Answer → Action (Result α)}
    (hnext : ∀ x : Transaction, Telling S s (next (x.run part).2)) :
    Telling S s ((Client.transaction t part).bind next) := by
  refine ask (fun _ _ => rfl) (fun _ _ _ _ => rfl) fun visit s' a ha => ?_
  obtain ⟨s'', -, hserve⟩ := serve_section visit s' t part
  rw [hserve] at ha
  rw [← Option.some_inj.mp ha]
  exact hnext _

/-- A delivery that is not enlisted is handed back, with the error of the
transaction as the result, which is not that of a closed queue. -/
theorem enlist (c : TransactionalConsumer) (t : TransactionId) (d : Delivery) :
    Telling S s (c.enlist t d) := by
  refine ask (fun _ _ => rfl) (fun _ _ _ _ => rfl) fun visit s' flag _ => ?_
  refine transaction fun x => ?_
  by_cases hactive : x.status = .active
  · simp only [Transaction.run, hactive, if_true]
    exact ask (fun _ _ => rfl) (fun _ _ _ _ => rfl) fun _ _ _ _ => done (by rintro ⟨⟩)
  · simp only [Transaction.run, hactive, if_false]
    refine ask (fun _ _ => rfl) (fun _ _ _ _ => rfl) fun _ _ _ _ => ?_
    exact (channel c.inner.channel rfl).andThen fun _ => done (by rintro ⟨⟩)

theorem enlistDequeued (c : TransactionalConsumer) (t : TransactionId) (d? : Option Delivery) :
    Telling S s (c.enlistDequeued t d?) := by
  cases d? with
  | none => exact done (by rintro ⟨⟩)
  | some d => exact (enlist c t d).andThen fun _ => done (by rintro ⟨⟩)

/-- The dequeue of the mode. -/
theorem ofMode (s : Subscriber) (t? : Option TransactionId) : Telling S s (s.dequeue t?) := by
  refine Subscriber.forward_of (P := Telling S s) (fun _ => dequeueTimeout s) fun hmode => ?_
  cases t? with
  | none => exact done (by rintro ⟨⟩)
  | some t =>
    refine transaction fun x => ?_
    by_cases hactive : x.status = .active
    · simp only [Transaction.run, Transaction.ensureActive, hactive, if_true]
      exact (dequeueTimeout s).andThen (enlistDequeued _ t)
    · simp only [Transaction.run, Transaction.ensureActive, hactive, if_false]
      exact done (by rintro ⟨⟩)

end Telling

/-! ## What a receive call makes of them -/

/-- A call in which no settlement has failed, and that does not report the
end. -/
theorem Reports.of_quiet {Mistaken : Error → Prop} {events : Trace S}
    {result? : Option (Result Received)} (hquiet : ∀ e ∈ events, failure? e = none)
    (hopen : ∀ faulted, result? ≠ some (.ok (.closed faulted))) :
    Reports Mistaken s events result? := by
  have hnever : ∀ e ∈ events, ∀ err, failure? e ≠ some err := by
    intro e he err herr
    rw [hquiet e he] at herr
    cases herr
  exact ⟨fun faulted hr => absurd hr (hopen faulted),
    fun e he err herr => absurd herr (hnever e he err),
    fun e he err herr => absurd herr (hnever e he err)⟩

/-- A call whose dequeue fails with another error than that of a closed
queue. -/
theorem Reports.of_error {events : Trace S} {err : Error} (herr : err ≠ .queueClosed)
    (h : Tells s events (some (.error err : Result (Option Delivery)))) :
    Reports (· = .queueClosed) s events (some (.error err)) := by
  have hsame : ∀ e ∈ events, ∀ err', failure? e = some err' → err = err' := by
    intro e he err' hfailure
    simpa using h.failed e he err' hfailure
  refine ⟨fun faulted hr => by simp at hr, fun e he err' hfailure _ => ?_,
    fun e he err' hfailure hmistaken => ?_⟩
  · rw [hsame e he err' hfailure]
  · exact absurd ((hsame e he err' hfailure).trans hmistaken) herr

/-- A call whose dequeue fails with the error of a closed queue. -/
theorem Reports.of_refusal {earlier later : Trace S} {q : Action (Result Received)}
    (h : Tells s earlier (some (.error .queueClosed : Result (Option Delivery))))
    (hrest : Walk (s.closed.bind fun r => .done (.ok r)) later q) :
    Reports (· = .queueClosed) s (earlier ++ later) q.result? := by
  -- to look how the subscription has ended settles nothing
  have hclosed : s.closed.Asks Request.Plain :=
    (s.endedByFault_asks trivial fun _ _ => trivial).bind fun _ => .done _
  have hlater : ∀ e ∈ later, failure? e = none := by
    intro e he
    have hplain := hrest.allowed plain_ne_runs (hclosed.bind fun _ => .done _) e he
    rw [failure?, (quiet_of_plain hplain).2]
    rfl
  have hsame : ∀ e ∈ earlier ++ later, ∀ err, failure? e = some err → err = .queueClosed := by
    intro e he err hfailure
    rcases List.mem_append.mp he with he | he
    · exact (by simpa using h.failed e he err hfailure : Error.queueClosed = err).symm
    · rw [hlater e he] at hfailure
      cases hfailure
  refine ⟨fun faulted _ => ?_, fun e he err hfailure hother => ?_, fun e he err _ _ r hr => ?_⟩
  · obtain ⟨e, he, hfound⟩ := h.refusal rfl
    refine ⟨e, List.mem_append_left _ he, hfound.imp_right fun hfailure => ?_⟩
    exact ⟨_, hfailure, rfl⟩
  · exact absurd (hsame e he err hfailure) hother
  · rcases hrest.of_bind with ⟨p, hp, -, rfl⟩ | ⟨r', between, last, -, hends, hlast⟩
    · rw [Program.result?_bind_of_none hp] at hr
      cases hr
    · obtain ⟨faulted, rfl⟩ := Walk.exists_of_bind_done (f := Received.closed) hends rfl
      obtain ⟨-, rfl⟩ := hlast.of_done
      exact ⟨faulted, (Option.some_inj.mp hr).symm⟩

/-- **Every receive call reports what it found.** -/
theorem receive_reports {t? : Option TransactionId} {events : Trace S}
    {q : Action (Result Received)} (h : Walk (s.receive t?) events q) :
    Reports (· = .queueClosed) s events q.result? := by
  rcases Walk.of_bind h with ⟨p, hp, hfirst, rfl⟩ | ⟨r, earlier, later, rfl, hfirst, hrest⟩
  · have htells := Telling.ofMode s t? events p hfirst
    rw [hp] at htells
    rw [Program.result?_bind_of_none hp]
    refine .of_quiet (fun e he => Option.eq_none_iff_forall_ne_some.mpr fun err hfailure => ?_)
      nofun
    cases htells.failed e he err hfailure
  · have htells := Telling.ofMode s t? earlier _ hfirst
    match r with
    | .ok d? =>
      -- no settlement has failed, or its error would be the result
      have hquiet : ∀ e ∈ earlier, failure? e = none := fun e he =>
        Option.eq_none_iff_forall_ne_some.mpr fun err hfailure => by
          cases htells.failed e he err hfailure
      cases d? with
      | none | some d =>
        obtain ⟨rfl, rfl⟩ := hrest.of_done
        rw [List.append_nil]
        exact .of_quiet hquiet nofun
    | .error err =>
      cases err with
      | queueClosed => exact .of_refusal htells hrest
      | channel | transaction | consumerInvalidState | configParseFailed | configInvalidValue =>
        obtain ⟨rfl, rfl⟩ := hrest.of_done
        rw [List.append_nil]
        exact .of_error nofun htells

/-! ## Every run -/

/-- A run in which the first thread makes a receive call, and the others do
whatever they like. -/
def runReceive (S : Surroundings) (w : World) (s : Subscriber) (t? : Option TransactionId)
    (others : List (Action (Result Received)))
    (schedule : List (Machine.Move interface (Result Received))) :
    History interface (Setting S) (Result Received) :=
  (Machine.start ⟨w, 0⟩ (s.receive t? :: others)).run schedule

/-- **A receive call reports the end of the subscription only if it found
it, and no settlement fails unnoticed**, but for the error of a closed
queue: whatever the mode, the queue, the transaction, the channel and the
other threads are. -/
theorem reports (S : Surroundings) (w : World) (s : Subscriber) (t? : Option TransactionId)
    (others : List (Action (Result Received)))
    (schedule : List (Machine.Move interface (Result Received))) :
    Reports (· = .queueClosed) s (eventsOf 0 (runReceive S w s t? others schedule).trace)
      ((runReceive S w s t? others schedule).machine.result? 0) := by
  have hprogram : (Machine.start (⟨w, 0⟩ : Setting S) (s.receive t? :: others)).programs[0]? =
      some (s.receive t?) := rfl
  obtain ⟨q, hq, hwalk⟩ := Machine.walk schedule hprogram
  rw [runReceive, Machine.result?_eq hq]
  exact receive_reports hwalk

/-- A subscriber that acknowledges automatically. -/
def acknowledging : Subscriber := ⟨⟨0, 0, 0, .auto⟩, .infinite⟩

/-- A client with one delivery in the queue, which is open. -/
def buffering : World :=
  { queues := ({} : Store (Queue Delivery)).set 0 ⟨[{ (default : Delivery) with tag := 7 }], true⟩ }

/-- The run in which the subscriber receives it and the acknowledgment
fails with the error of a closed queue. -/
def failing : History interface (Setting mistakable) (Result Received) :=
  runReceive mistakable buffering acknowledging none [] (List.replicate 6 (.advance .longest 0))

/-- **A settlement that fails with the error of a closed queue is taken for
the end of the subscription**, though the queue is open. -/
theorem not_reports : ¬ Reports (fun _ => False) acknowledging (eventsOf 0 failing.trace)
    (failing.machine.result? 0) := by
  intro h
  have hresult : failing.machine.result? 0 = some (.ok (.closed false)) := by rfl
  have hfailures : (eventsOf 0 failing.trace).filterMap failure? = [.queueClosed] := by rfl
  have hmem : .queueClosed ∈ (eventsOf 0 failing.trace).filterMap failure? :=
    hfailures ▸ List.mem_singleton_self _
  obtain ⟨e, he, hfailure⟩ := List.mem_filterMap.mp hmem
  have hreturned := h.returned e he .queueClosed hfailure id
  rw [hresult] at hreturned
  cases hreturned

end MessageIntake.Reception
