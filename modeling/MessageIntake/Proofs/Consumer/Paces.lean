import MessageIntake.Proofs.Client.Carrier
import MessageIntake.Proofs.Consumer.Errand
import MessageIntake.Proofs.Machine.Solo
import MessageIntake.Proofs.Queue.Timeouts

/-!
# The ways to take a delivery agree

A delivery is taken by waiting for it, by waiting so long, or at once, through a
consumer or into a transaction. Each way is a program of its own, but they differ in
the one call to the queue (`Taker.dequeue_eq`): before it the transaction is asked,
after it what was found is settled. Where the queue has an item or is closed, this
call finds the same whatever the way, and leaves the same; so from there on nothing
can tell the ways apart (`paces_agree`).
-/

namespace MessageIntake

open Client

namespace Client.Action

variable {α β γ : Type}

theorem andThen_assoc (p : Action (Result α)) (f : α → Action (Result β))
    (g : β → Action (Result γ)) : (p.andThen f).andThen g = p.andThen fun a => (f a).andThen g := by
  refine (Program.bind_assoc p _ _).trans (congrArg p.bind (funext fun r => ?_))
  cases r <;> rfl

/-- To convert the result of the last of several actions. -/
theorem andThen_map (p : Action (Result α)) (f : α → Action (Result β)) (g : β → γ) :
    (p.andThen f).bind (fun r => .done (r.map g)) =
      p.andThen fun a => (f a).bind fun r => .done (r.map g) := by
  refine (Program.bind_assoc p _ _).trans (congrArg p.bind (funext fun r => ?_))
  cases r <;> rfl

end Client.Action

/-! ## The ways to take a delivery -/

/-- The call that takes from a queue. -/
@[reducible] def Pace.call : Pace → Queue.Call Delivery
  | .waiting => .dequeue
  | .within timeout => .dequeueTimeout timeout
  | .atOnce => .tryDequeue

/-- What its answer means: a delivery, none, or an error. -/
def Pace.found : (pace : Pace) → pace.call.Answer → Result (Option Delivery)
  | .waiting, answer => Except.map some answer
  | .within _, answer | .atOnce, answer => answer

/-- Who takes deliveries: a consumer in whatever mode, or one that takes them into a
transaction. -/
inductive Taker where
  | plain (c : Consumer)
  | under (c : TransactionalConsumer) (t : TransactionId)

namespace Taker

/-- The queue that deliveries are taken from. -/
def queue : Taker → QueueId
  | plain c => c.queue
  | under c _ => c.inner.queue

/-- To take a delivery, at any pace. -/
def dequeue : Taker → Pace → Action (Result (Option Delivery))
  | plain c, .waiting => do return (← c.dequeue).map some
  | plain c, .within timeout => c.dequeueTimeout timeout
  | plain c, .atOnce => c.dequeueNoWait
  | under c t, .waiting => do return (← c.dequeue t).map some
  | under c t, .within timeout => c.dequeueTimeout timeout t
  | under c t, .atOnce => c.dequeueNoWait t

/-- What is done with what was found: the delivery is settled, and enlisted. -/
def settle : Taker → Result (Option Delivery) → Action (Result (Option Delivery))
  | plain c, found => Action.andThen (.done found) c.settleDequeued
  | under c t, found =>
    (Action.andThen (.done found) c.inner.settleDequeued).andThen (c.enlistDequeued t)

/-- The removal, and what is done after it. -/
def take (x : Taker) (pace : Pace) : Action (Result (Option Delivery)) :=
  (Client.queue x.queue pace.call).bind fun answer => x.settle (pace.found answer)

/-- **A consumer takes deliveries in ways that differ in the removal only.** -/
theorem dequeue_plain (c : Consumer) (pace : Pace) :
    (plain c).dequeue pace = (plain c).take pace := by
  cases pace with
  | within | atOnce => rfl
  | waiting =>
    have hsettled : (plain c).dequeue .waiting = Action.andThen (Client.queue c.queue .dequeue)
        fun d => (c.onDequeued d).andThen fun _ => .done (.ok (some d)) := by
      refine (Action.andThen_map _ _ some).trans (congrArg (Action.andThen _) (funext fun d => ?_))
      exact Action.andThen_map _ _ some
    rw [hsettled]
    refine congrArg (Program.bind _) (funext fun answer => ?_)
    cases answer <;> rfl

/-- **So does one that takes them into a transaction**, once it is active. -/
theorem dequeue_under (c : TransactionalConsumer) (t : TransactionId) (pace : Pace) :
    (under c t).dequeue pace = TransactionalConsumer.whenActive t ((under c t).take pace) := by
  cases pace with
  | within | atOnce => rfl
  | waiting =>
    have htaken : (c.inner.dequeue.andThen fun d => (c.enlist t d).andThen fun _ => .done (.ok d)).bind
        (fun r => .done (r.map some)) = (under c t).take .waiting := by
      rw [Action.andThen_map, Consumer.dequeue, Action.andThen_assoc]
      refine congrArg (Program.bind _) (funext fun answer => ?_)
      cases answer with
      | error e => rfl
      | ok d =>
        have hsettled : (under c t).settle (.ok (some d)) =
            (c.inner.onDequeued d).andThen fun _ => c.enlistDequeued t (some d) :=
          Action.andThen_assoc (c.inner.onDequeued d) (fun _ => .done (.ok (some d)))
            (c.enlistDequeued t)
        refine (Action.andThen_assoc _ _ _).trans (.trans ?_ hsettled.symm)
        refine congrArg (Action.andThen _) (funext fun _ => ?_)
        exact Action.andThen_map _ _ some
    refine (Action.andThen_map _ _ some).trans ?_
    exact congrArg (TransactionalConsumer.whenActive t) htaken

/-- What is asked before the removal. -/
def checks : Taker → List Request
  | plain _ => []
  | under _ t => [.under (.transaction t .ensureActive)]

end Taker

/-! ## What is found at once -/

/-- A queue that nobody has to wait to take from: it has an item, or it is closed. -/
def Queue.Ready (q : Queue Delivery) : Prop := q.items ≠ [] ∨ q.isOpen = false

/-- What a pass that removes finds, and what it leaves, if it does not sleep. -/
def Queue.Gives (q : Queue Delivery) (visit : Visit) (pace : Pace)
    (found : Result (Option Delivery)) (q' : Queue Delivery) : Prop :=
  ∃ answer, q.pass visit pace.call = ⟨q', .nobody, .returns answer⟩ ∧ pace.found answer = found

/-- A pace at which nobody waits. -/
def Pace.Brief (pace : Pace) : Prop := pace = .atOnce ∨ pace = .within .zero

/-- An item is found, whatever the pace and the time. -/
theorem Queue.gives_of_cons (d : Delivery) (rest : List Delivery) (isOpen : Bool) (visit : Visit)
    (pace : Pace) :
    (⟨d :: rest, isOpen⟩ : Queue Delivery).Gives visit pace (.ok (some d)) ⟨rest, isOpen⟩ := by
  cases pace <;> exact ⟨_, rfl, rfl⟩

/-- So is the end of a closed queue. -/
theorem Queue.gives_of_closed (visit : Visit) (pace : Pace) :
    (⟨[], false⟩ : Queue Delivery).Gives visit pace (.error .queueClosed) ⟨[], false⟩ := by
  cases pace <;> exact ⟨_, rfl, rfl⟩

/-- **Every removal from such a queue finds the same.** -/
theorem Queue.Ready.exists_gives {q : Queue Delivery} (h : q.Ready) :
    ∃ found q', ∀ visit pace, q.Gives visit pace found q' := by
  obtain ⟨items, isOpen⟩ := q
  cases items with
  | cons d rest => exact ⟨_, _, gives_of_cons d rest isOpen⟩
  | nil =>
    obtain rfl : isOpen = false := h.resolve_left (absurd rfl)
    exact ⟨_, _, gives_of_closed⟩

/-- An open queue without an item has nothing for who does not wait. -/
theorem Pace.Brief.gives {pace : Pace} (h : pace.Brief) {now : Instant} (hnow : Instant.InRange now) :
    (⟨[], true⟩ : Queue Delivery).Gives ⟨now, now, false⟩ pace (.ok none) ⟨[], true⟩ := by
  rcases h with rfl | rfl
  · exact ⟨_, rfl, rfl⟩
  · have hprompt : Queue.Prompt ⟨now, now, false⟩ := ⟨hnow, Nat.le_refl _⟩
    exact ⟨.ok none, Queue.pass_dequeueTimeout_zero hprompt _, rfl⟩

namespace Paces

/-- **The same event**, but that the removal may be one of another pace, which finds the
same. -/
inductive Matches {σ : Type} [Server interface σ] (id : QueueId) :
    Event interface σ → Event interface σ → Prop
  | same (e : Event interface σ) : Matches id e e
  | removal (i : Nat) (s s' : σ) {pace pace' : Pace} {answer : pace.call.Answer}
    {answer' : pace'.call.Answer} : pace.found answer = pace'.found answer' →
    Matches id ⟨i, s, Request.under (.queue id pace.call), some answer, s'⟩
      ⟨i, s, Request.under (.queue id pace'.call), some answer', s'⟩

/-- **Runs that agree**: they have led to the same machine, by matching events. -/
structure Agree {σ γ : Type} [Server interface σ] (id : QueueId) (h h' : History interface σ γ) :
    Prop where
  machine : h.machine = h'.machine
  trace : List.Forall₂ (Matches id) h.trace h'.trace

theorem Agree.refl {σ γ : Type} [Server interface σ] (id : QueueId) (h : History interface σ γ) :
    Agree id h h :=
  ⟨rfl, List.forall₂_same.mpr fun e _ => .same e⟩

variable {σ γ : Type} [Server interface σ] [Carries σ] {m : Machine interface σ γ} {i : Nat}
  {x : Taker} {pace pace' : Pace} {found : Result (Option Delivery)} {q : Queue Delivery}
  {next : Result (Option Delivery) → Action γ}

/-- Thread `i` takes a delivery and goes on; the objects and the other threads are as they
are. -/
def taking (m : Machine interface σ γ) (i : Nat) (x : Taker) (pace : Pace)
    (next : Result (Option Delivery) → Action γ) : Machine interface σ γ :=
  m.assign i ((x.dequeue pace).bind next)

/-- The moves of thread `i` up to the removal, and then more. -/
def removing (x : Taker) (waker : Machine.Waker interface γ) (i : Nat)
    (later : List (Machine.Move interface γ)) : List (Machine.Move interface γ) :=
  x.checks.map (fun _ => .advance waker i) ++ .advance waker i :: later

/-! ## One thread alone -/

/-- The removal. -/
theorem run_take (next : Result (Option Delivery) → Action γ) (hi : i < m.threads.length) {s : σ}
    (h : (Carries.queue s x.queue).Gives ⟨m.clock, m.clock, false⟩ pace found q)
    (waker : Machine.Waker interface γ) (later : List (Machine.Move interface γ)) :
    ∃ answer, pace.found answer = found ∧
      let s' := Carries.setQueue s x.queue q
      (m.resume s i ((x.take pace).bind next)).run (.advance waker i :: later) =
        ((m.resume s' i ((x.settle found).bind next)).run later).after
          [⟨i, s, Request.under (.queue x.queue pace.call), some answer, s'⟩] := by
  obtain ⟨answer, hpass, hfound⟩ := h
  have hserve : Server.serve (I := interface) ⟨m.clock, m.clock, false⟩ s
      (.under (.queue x.queue pace.call)) =
        .answers (Carries.setQueue s x.queue q) .nobody answer := by
    rw [Carries.serve_queue, hpass]
    rfl
  refine ⟨answer, hfound, ?_⟩
  rw [← hfound]
  exact Machine.run_cons_of_answers hi hserve waker later

/-- A transaction is asked whether it is active. -/
theorem run_whenActive (hi : i < m.threads.length) (s : σ) (t : TransactionId) {α : Type}
    (action : Action (Result α)) (next : Result α → Action γ) (waker : Machine.Waker interface γ)
    (later : List (Machine.Move interface γ)) :
    let answer := (Carries.transaction s t).ensureActive
    let s' := Carries.asked s t
    (m.resume s i ((TransactionalConsumer.whenActive t action).bind next)).run
        (.advance waker i :: later) =
      ((m.resume s' i ((Action.andThen (.done answer) fun _ => action).bind next)).run later).after
        [⟨i, s, Request.under (.transaction t .ensureActive), some answer, s'⟩] :=
  Machine.run_cons_of_answers hi (Carries.serve_ensureActive _ s t) waker later

/-- Removals that find the same agree. -/
theorem take_agree (next : Result (Option Delivery) → Action γ) (hi : i < m.threads.length) {s : σ}
    (h : (Carries.queue s x.queue).Gives ⟨m.clock, m.clock, false⟩ pace found q)
    (h' : (Carries.queue s x.queue).Gives ⟨m.clock, m.clock, false⟩ pace' found q)
    (waker : Machine.Waker interface γ) (later : List (Machine.Move interface γ)) :
    Agree x.queue ((m.resume s i ((x.take pace).bind next)).run (.advance waker i :: later))
      ((m.resume s i ((x.take pace').bind next)).run (.advance waker i :: later)) := by
  obtain ⟨answer, hanswer, hrun⟩ := run_take next hi h waker later
  obtain ⟨answer', hanswer', hrun'⟩ := run_take next hi h' waker later
  rw [hrun, hrun']
  exact ⟨rfl, .cons (.removal i s _ (hanswer.trans hanswer'.symm)) (Agree.refl _ _).trace⟩

/-- **Where the removals find the same, nothing tells the ways apart**: once the delivery
is removed the machines are one, whoever moves then. -/
theorem agree_of_gives (next : Result (Option Delivery) → Action γ) (hi : i < m.threads.length)
    (h : (Carries.queue m.shared x.queue).Gives ⟨m.clock, m.clock, false⟩ pace found q)
    (h' : (Carries.queue m.shared x.queue).Gives ⟨m.clock, m.clock, false⟩ pace' found q)
    (waker : Machine.Waker interface γ) (later : List (Machine.Move interface γ)) :
    Agree x.queue ((taking m i x pace next).run (removing x waker i later))
      ((taking m i x pace' next).run (removing x waker i later)) := by
  cases x with
  | plain c =>
    simp only [taking, Taker.dequeue_plain]
    exact take_agree next hi h h' waker later
  | under c t =>
    simp only [taking, Taker.dequeue_under]
    have hrun (pace : Pace) := run_whenActive hi m.shared t ((Taker.under c t).take pace) next waker
      (.advance waker i :: later)
    refine (congrArg₂ (Agree _) (hrun pace) (hrun pace')).mpr ?_
    rw [← Carries.queue_asked m.shared t] at h h'
    -- the transaction answers both the same, and it is not the removal that is settled if it refuses
    cases (Carries.transaction m.shared t).ensureActive with
    | error e => exact .refl _ _
    | ok u =>
      obtain ⟨hmachine, htrace⟩ := take_agree next hi h h' waker later
      exact ⟨hmachine, .cons (.same _) htrace⟩

/-- The event that a transaction refuses, which leaves the state as it is. -/
def refusal (i : Nat) (s : σ) (t : TransactionId) (e : Error) : Event interface σ :=
  ⟨i, s, Request.under (.transaction t .ensureActive), some (Except.error e), s⟩

/-- **A transaction that is not active refuses**, and nothing has changed. -/
theorem run_refused (hi : i < m.threads.length) {s : σ} {t : TransactionId}
    (h : (Carries.transaction s t).status ≠ .active) {α : Type} (action : Action (Result α))
    (next : Result α → Action γ) (waker : Machine.Waker interface γ)
    (later : List (Machine.Move interface γ)) :
    let e := Transaction.notActive (Carries.transaction s t).status
    (m.resume s i ((TransactionalConsumer.whenActive t action).bind next)).run
        (.advance waker i :: later) =
      ((m.resume s i (next (.error e))).run later).after [refusal i s t e] := by
  have hanswer : (Carries.transaction s t).ensureActive =
      .error (Transaction.notActive (Carries.transaction s t).status) := if_neg h
  have hrun := run_whenActive hi s t action next waker later
  rw [hanswer, Carries.asked_eq_self h] at hrun
  exact hrun

/-- The taker is not held up: it has no transaction, or an active one. -/
def Unhindered (x : Taker) (s : σ) : Prop :=
  match x with
  | .plain _ => True
  | .under _ t => (Carries.transaction s t).status = .active

/-- **Who does not wait finds nothing in an open queue without an item**, and changes
nothing. -/
theorem run_brief (hi : i < m.threads.length) (hbrief : pace.Brief)
    (hnow : Instant.InRange m.clock) (hempty : Carries.queue m.shared x.queue = ⟨[], true⟩)
    (hx : Unhindered x m.shared) (waker : Machine.Waker interface γ)
    (later : List (Machine.Move interface γ)) :
    ∃ (events : List (Event interface σ)) (s : σ),
      (Carries.world s).Same (Carries.world m.shared) ∧
      events.map Event.request = x.checks ++ [Request.under (.queue x.queue pace.call)] ∧
      (taking m i x pace next).run (removing x waker i later) =
        ((m.resume s i (next (.ok none))).run later).after events := by
  have hgives := hbrief.gives hnow
  cases x with
  | plain c =>
    rw [← hempty] at hgives
    obtain ⟨answer, -, hrun⟩ := run_take next hi hgives waker later
    rw [← Taker.dequeue_plain] at hrun
    let s' := Carries.setQueue m.shared c.queue (Carries.queue m.shared c.queue)
    refine ⟨[⟨i, m.shared, Request.under (.queue c.queue pace.call), some answer, s'⟩], s',
      ?_, rfl, hrun⟩
    rw [Carries.world_setQueue]
    exact World.Same.set_queue _ _ rfl
  | under c t =>
    have hactive : (Carries.transaction m.shared t).ensureActive = .ok () := if_pos hx
    have hfirst := run_whenActive hi m.shared t ((Taker.under c t).take pace) next waker
      (.advance waker i :: later)
    rw [← Taker.dequeue_under, hactive] at hfirst
    rw [← hempty, ← Carries.queue_asked m.shared t] at hgives
    obtain ⟨answer, -, hrun⟩ := run_take next hi hgives waker later
    let s := Carries.asked m.shared t
    let s' := Carries.setQueue s c.inner.queue (Carries.queue s c.inner.queue)
    refine ⟨[⟨i, m.shared, Request.under (.transaction t .ensureActive), some (.ok ()), s⟩,
      ⟨i, s, Request.under (.queue c.inner.queue pace.call), some answer, s'⟩], s',
      ?_, rfl, hfirst.trans ?_⟩
    · rw [Carries.world_setQueue]
      exact (World.Same.set_queue _ _ rfl).trans (Carries.world_asked _ _)
    · exact congrArg (History.after _) hrun

/-! ## Every way comes to an end -/

/-- Requests that are answered at once, whatever the state. -/
def Quick : Request → Prop
  | .under (.queue _ call) => call = .tryDequeue
  | .under _ | .outside _ => True
  | .notify _ _ => False

theorem Quick.answers {S : Surroundings} {r : Request} (h : Quick r) (visit : Visit)
    (s : Setting S) :
    ∃ s' a, Server.serve (I := interface) visit s r = .answers s' .nobody a := by
  match r with
  | .under (.queue id call) =>
    obtain rfl : call = .tryDequeue := h
    rw [Carries.serve_queue]
    obtain ⟨items, isOpen⟩ := Carries.queue s id
    cases items with
    | cons d rest => exact ⟨_, _, rfl⟩
    | nil => cases isOpen <;> exact ⟨_, _, rfl⟩
  | .under (.lifecycle _ _) | .under (.transaction _ _) | .under .newFlag | .under (.settle _)
  | .outside _ => exact ⟨_, _, rfl⟩
  | .notify _ _ => exact h.elim

theorem quick_andThen {α β : Type} {p : Action (Result α)} {f : α → Action (Result β)}
    (h : p.Asks Quick) (hf : ∀ a, (f a).Asks Quick) : (p.andThen f).Asks Quick := by
  refine h.bind fun r => ?_
  cases r with
  | ok a => exact hf a
  | error e => exact .done _

theorem quick_settleDequeued (c : Consumer) (d? : Option Delivery) :
    (c.settleDequeued d?).Asks Quick := by
  cases d? with
  | none => exact .done _
  | some d =>
    refine quick_andThen ?_ fun _ => .done _
    unfold Consumer.onDequeued
    cases c.mode with
    | auto => exact .ask trivial fun _ => .ask trivial fun _ => .done _
    | manual | transactional => exact .done _

theorem quick_enlistDequeued (c : TransactionalConsumer) (t : TransactionId)
    (d? : Option Delivery) : (c.enlistDequeued t d?).Asks Quick := by
  cases d? with
  | none => exact .done _
  | some d =>
    refine quick_andThen (.ask trivial fun flag => .ask trivial fun answer => ?_) fun _ => .done _
    cases answer with
    | ok u => exact .ask trivial fun _ => .done _
    | error e => exact .ask trivial fun _ => quick_andThen (.ask trivial .done) fun _ => .done _

/-- To take at once asks nothing that is not answered at once. -/
theorem quick_dequeue (x : Taker) : (x.dequeue .atOnce).Asks Quick := by
  cases x with
  | plain c => exact quick_andThen (.ask rfl .done) (quick_settleDequeued c)
  | under c t =>
    refine quick_andThen (.ask trivial .done) fun _ => quick_andThen ?_ (quick_enlistDequeued c t)
    exact quick_andThen (.ask rfl .done) (quick_settleDequeued c.inner)

/-- **All ways return, and return the same**, in the same state. -/
theorem exists_same_return {S : Surroundings}
    {m : Machine interface (Setting S) (Result (Option Delivery))} (hi : i < m.threads.length)
    (hready : (Carries.queue m.shared x.queue).Ready)
    (waker : Machine.Waker interface (Result (Option Delivery))) :
    ∃ n result s, ∀ pace : Pace,
      ((taking m i x pace .done).run (List.replicate n (.advance waker i))).machine =
        m.resume s i (.done result) := by
  obtain ⟨found, q, hgives⟩ := hready.exists_gives
  let start := taking m i x .atOnce .done
  have hstart : start.threads[i]? = some (.running (x.dequeue .atOnce)) := by
    refine (List.getElem?_set_self hi).trans ?_
    rw [Program.bind_done]
  have hquick := (quick_dequeue x).mono fun r hr => Quick.answers (S := S) hr
  obtain ⟨asked, s, result, halone⟩ := Program.exists_alone hquick start.clock start.shared
  obtain ⟨n, hmachine, -⟩ := halone.ends waker rfl rfl hstart
  have hended : ((start.run (List.replicate n (.advance waker i))).machine.result? i).isSome := by
    rw [hmachine, Machine.result?_afterAlone (List.getElem?_eq_some_iff.mp hstart).1]
    rfl
  -- who has ended does not move, so there is time for the removal in any case
  have hmoves (k : Nat) : removing x waker i (List.replicate k (.advance waker i)) =
      List.replicate (x.checks.length + 1 + k) (.advance waker i) := by
    rw [removing, List.map_const', ← List.replicate_succ, List.replicate_append_replicate]
    congr 1
    omega
  refine ⟨x.checks.length + 1 + n, result, s, fun pace => ?_⟩
  have hagree := (agree_of_gives .done hi (hgives _ pace) (hgives _ .atOnce)
    waker (List.replicate n (.advance waker i))).machine
  rw [hmoves] at hagree
  rw [hagree, Nat.add_comm, List.replicate_add, Machine.run_append,
    Machine.run_of_ended hended, hmachine]
  exact m.afterAlone_resume m.shared s i _ result

/-- **What it means that the ways to take a delivery agree.** The taker is any consumer, in
whatever mode and under whatever transaction; the other threads are where they may be. -/
structure PacesAgree : Prop where
  /-- Where the queue has an item or is closed, the way makes no difference: thread `i` moves
  alone until the delivery is removed, and then whoever may. The machines are the same,
  with the same objects and the same results, and the same has happened in both but that
  the removal was another call. -/
  agree {σ γ : Type} [Server interface σ] [Carries σ] {m : Machine interface σ γ} {i : Nat}
    {x : Taker} {next : Result (Option Delivery) → Action γ} (pace pace' : Pace)
    (waker : Machine.Waker interface γ) (later : List (Machine.Move interface γ)) :
    i < m.threads.length → (Carries.queue m.shared x.queue).Ready →
    Agree x.queue ((taking m i x pace next).run (removing x waker i later))
      ((taking m i x pace' next).run (removing x waker i later))
  /-- There every way returns, if thread `i` moves alone and channels answer at once: with one
  result and in one state for all of them. -/
  returns {S : Surroundings} {m : Machine interface (Setting S) (Result (Option Delivery))}
    {i : Nat} {x : Taker} (waker : Machine.Waker interface (Result (Option Delivery))) :
    i < m.threads.length → (Carries.queue m.shared x.queue).Ready →
    ∃ n result s, ∀ pace : Pace,
      ((taking m i x pace .done).run (List.replicate n (.advance waker i))).machine =
        m.resume s i (.done result)
  /-- On an open queue without an item the ways agree that do not wait. -/
  agree_brief {σ γ : Type} [Server interface σ] [Carries σ] {m : Machine interface σ γ} {i : Nat}
    {x : Taker} {next : Result (Option Delivery) → Action γ} {pace pace' : Pace}
    (waker : Machine.Waker interface γ) (later : List (Machine.Move interface γ)) :
    i < m.threads.length → Instant.InRange m.clock →
    Carries.queue m.shared x.queue = ⟨[], true⟩ → pace.Brief → pace'.Brief →
    Agree x.queue ((taking m i x pace next).run (removing x waker i later))
      ((taking m i x pace' next).run (removing x waker i later))
  /-- They return without a delivery, if no transaction hinders them, and change no object.
  All they ask is the transaction and the queue, so nothing is sent and nothing enlisted. -/
  nothing {σ γ : Type} [Server interface σ] [Carries σ] {m : Machine interface σ γ} {i : Nat}
    {x : Taker} {next : Result (Option Delivery) → Action γ} {pace : Pace}
    (waker : Machine.Waker interface γ) (later : List (Machine.Move interface γ)) :
    i < m.threads.length → pace.Brief → Instant.InRange m.clock →
    Carries.queue m.shared x.queue = ⟨[], true⟩ → Unhindered x m.shared →
    ∃ (events : List (Event interface σ)) (s : σ),
      (Carries.world s).Same (Carries.world m.shared) ∧
      events.map Event.request = x.checks ++ [Request.under (.queue x.queue pace.call)] ∧
      (taking m i x pace next).run (removing x waker i later) =
        ((m.resume s i (next (.ok none))).run later).after events
  /-- A transaction that is not active refuses, whatever the way and the queue, and nothing at
  all has changed. -/
  refused {σ γ : Type} [Server interface σ] [Carries σ] {m : Machine interface σ γ} {i : Nat}
    {c : TransactionalConsumer} {t : TransactionId} {next : Result (Option Delivery) → Action γ}
    (pace : Pace) (waker : Machine.Waker interface γ) (later : List (Machine.Move interface γ)) :
    i < m.threads.length → (Carries.transaction m.shared t).status ≠ .active →
    let e := Transaction.notActive (Carries.transaction m.shared t).status
    (taking m i (.under c t) pace next).run (.advance waker i :: later) =
      ((m.assign i (next (.error e))).run later).after [refusal i m.shared t e]

/-- **The ways to take a delivery agree.** -/
theorem paces_agree : PacesAgree where
  agree pace pace' waker later hi hready := by
    obtain ⟨found, q, hgives⟩ := hready.exists_gives
    exact agree_of_gives _ hi (hgives _ pace) (hgives _ pace') waker later
  returns waker hi hready := exists_same_return hi hready waker
  agree_brief {_ _ _ _ m _ x _ _ _} waker later hi hnow hempty hbrief hbrief' := by
    have hgives {pace : Pace} (hbrief : pace.Brief) :
        (Carries.queue m.shared x.queue).Gives ⟨m.clock, m.clock, false⟩ pace (.ok none)
          ⟨[], true⟩ := by
      rw [hempty]
      exact hbrief.gives hnow
    exact agree_of_gives _ hi (hgives hbrief) (hgives hbrief') waker later
  nothing waker later hi hbrief hnow hempty hx := run_brief hi hbrief hnow hempty hx waker later
  refused pace waker later hi hstatus := by
    rw [taking, Taker.dequeue_under]
    exact run_refused hi hstatus _ _ waker later

end Paces

end MessageIntake
