import MessageIntake.Consumer.Subscriber
import MessageIntake.Proofs.Consumer.Paces
import MessageIntake.Proofs.Machine.Detour

/-!
# A transaction that cannot be used leaves everything as it was

Whoever takes deliveries into a transaction asks first whether it is active
(`Attempt.exists_action_eq`). If it is not, the attempt is over with this one request: it
has not waited, and no object has changed. So attempts that fail may be made anywhere in a
run, and nobody else can tell (`refusal_harmless`): a run with them is the run without
them, up to the attempt, if any, that finds its transaction active.
-/

namespace MessageIntake.Refusal

open Client Paces

/-! ## Attempts -/

/-- **A call that needs an active transaction**: to take a delivery into one, or to receive one
as a subscriber in transactional mode. -/
inductive Attempt where
  | take (c : TransactionalConsumer) (pace : Pace) (t : TransactionId)
  | receive (s : Subscriber) (transactional : s.consumer.mode = .transactional)
    (t? : Option TransactionId)

namespace Attempt

/-- What it returns if it succeeds. -/
@[reducible] def Answer : Attempt → Type
  | take _ .waiting _ => Delivery
  | take _ (.within _) _ | take _ .atOnce _ => Option Delivery
  | receive .. => Received

/-- Its program. -/
def action : (x : Attempt) → Action (Result x.Answer)
  | take c .waiting t => c.dequeue t
  | take c (.within timeout) t => c.dequeueTimeout timeout t
  | take c .atOnce t => c.dequeueNoWait t
  | receive s _ t? => s.receive t?

/-- The transaction that it is made under. -/
def transaction? : Attempt → Option TransactionId
  | take _ _ t => some t
  | receive _ _ t? => t?

/-- What a subscriber makes of the delivery that was taken, or was not. -/
theorem exists_receive_eq (s : Subscriber) (t? : Option TransactionId) :
    ∃ report : Result (Option Delivery) → Action (Result Received),
      s.receive t? = (s.dequeue t?).bind report ∧
      ∀ e, report (.error (.transaction e)) = .done (.error (.transaction e)) :=
  ⟨_, rfl, fun _ => rfl⟩

/-- **An attempt asks first whether its transaction is active**, and ends if it is not. -/
theorem exists_action_eq {x : Attempt} {t : TransactionId} (h : x.transaction? = some t) :
    ∃ next : Result Unit → Action (Result x.Answer),
      x.action = (transaction t .ensureActive).bind next ∧
      ∀ status, next (.error (Transaction.notActive status)) =
        .done (.error (Transaction.notActive status)) := by
  cases x with
  | take c pace t' =>
    obtain rfl : t' = t := Option.some_inj.mp h
    cases pace <;> exact ⟨_, rfl, fun _ => rfl⟩
  | receive s htransactional t? =>
    obtain rfl : t? = some t := h
    obtain ⟨report, hreceive, hreport⟩ := exists_receive_eq s (some t)
    rw [Subscriber.dequeue, Subscriber.forward_eq_of_transactional htransactional] at hreceive
    let taker : TransactionalConsumer := ⟨s.consumer, htransactional⟩
    let rest := (taker.inner.dequeueTimeout s.receiveTimeout).andThen (taker.enlistDequeued t)
    exact ⟨fun r => (Action.andThen (.done r) fun _ => rest).bind report, hreceive,
      fun _ => hreport _⟩

/-- **Without a transaction there is nothing to ask.** -/
theorem action_eq_of_none {x : Attempt} (h : x.transaction? = none) :
    x.action = .done (.error (.transaction (.notActive "NONE"))) := by
  cases x with
  | take c pace t => cases h
  | receive s htransactional t? =>
    obtain rfl : t? = none := h
    obtain ⟨report, hreceive, hreport⟩ := exists_receive_eq s none
    have hdequeue : s.dequeue none = .done (.error (.transaction (.notActive "NONE"))) :=
      Subscriber.forward_eq_of_transactional htransactional
    rw [action, hreceive, hdequeue]
    exact hreport _

end Attempt

/-! ## One attempt -/

variable {σ γ : Type} [Server interface σ] [Carries σ] {m : Machine interface σ γ} {i : Nat}
  {x : Attempt} {t : TransactionId}

/-- **An attempt that fails is over at once**: thread `i` makes one move, at the end of which it
has the error. The state is the same, and so are the other threads. The thread may have made
its request before. -/
theorem run_attempt (htransaction : x.transaction? = some t)
    (hstatus : (Carries.transaction m.shared t).status ≠ .active)
    {next : Result x.Answer → Action γ} {phase : Phase interface γ}
    (hi : m.threads[i]? = some phase) (hawake : phase.isAsleep = false)
    (hprogram : phase.program = x.action.bind next)
    (waker : Machine.Waker interface γ) (later : List (Machine.Move interface γ)) :
    let e := Transaction.notActive (Carries.transaction m.shared t).status
    m.run (.advance waker i :: later) =
      ((m.assign i (next (.error e))).run later).after [refusal i m.shared t e] := by
  intro e
  obtain ⟨rest, haction, hrest⟩ := x.exists_action_eq htransaction
  rw [haction] at hprogram
  obtain ⟨visit, hasks⟩ := Phase.exists_asks hawake hprogram m.clock
  have hrefuses : (Carries.transaction m.shared t).ensureActive = .error e := if_neg hstatus
  have hserve := Carries.serve_ensureActive visit m.shared t
  rw [Carries.asked_eq_self hstatus, hrefuses] at hserve
  have hrun := Machine.run_cons_of_asks hi hasks hserve waker later
  dsimp only [Program.done_bind] at hrun
  rw [hrest] at hrun
  exact hrun

/-- **An attempt that fails may be made at any point of a run**: what comes after it is what
would have come without it. -/
theorem run_insert (htransaction : x.transaction? = some t)
    (hstatus : (Carries.transaction m.shared t).status ≠ .active) {p : Action γ}
    (hi : m.threads[i]? = some (.running p)) (waker : Machine.Waker interface γ)
    (later : List (Machine.Move interface γ)) :
    let e := Transaction.notActive (Carries.transaction m.shared t).status
    (m.assign i (x.action.bind fun _ => p)).run (.advance waker i :: later) =
      (m.run later).after [refusal i m.shared t e] := by
  have hlt : i < m.threads.length := (List.getElem?_eq_some_iff.mp hi).1
  have hasks : (m.assign i (x.action.bind fun _ => p)).threads[i]? =
      some (.running (x.action.bind fun _ => p)) := List.getElem?_set_self hlt
  -- once the attempt has failed, thread `i` is back at the program it has in `m`
  have hagain : (m.assign i (x.action.bind fun _ => p)).assign i p = m := by
    simp only [Machine.assign, List.set_set]
    rw [set_eq_self hi]
  have hrun := run_attempt (m := m.assign i (x.action.bind fun _ => p)) htransaction hstatus hasks
    rfl rfl waker later
  rw [hagain] at hrun
  exact hrun

/-! ## Any number of attempts -/

/-- The answers by which transactions of `T` refuse. -/
def Refuses (T : Set TransactionId) : (r : Request) → r.Answer → Prop
  | .under (.transaction t .ensureActive), answer =>
    t ∈ T ∧ ∃ status, status ≠ .active ∧ answer = .error (Transaction.notActive status)
  | _, _ => False

variable {T : Set TransactionId}

theorem exists_of_refuses {r : Request} {answer : r.Answer} (h : Refuses T r answer) :
    ∃ t ∈ T, r = .under (.transaction t .ensureActive) := by
  unfold Refuses at h
  split at h
  · exact ⟨_, h.1, rfl⟩
  · exact h.elim

/-- A refusal leaves the state as it is. -/
theorem harmless (σ : Type) [Server interface σ] [Carries σ] (T : Set TransactionId) :
    Harmless (I := interface) σ (Refuses T) := by
  intro visit s s' r signal answer hserve hrefuses
  obtain ⟨t, -, rfl⟩ := exists_of_refuses hrefuses
  obtain ⟨-, status, -, hanswer⟩ := hrefuses
  rw [Carries.serve_ensureActive] at hserve
  cases hserve
  have hunusable : (Carries.transaction s t).status ≠ .active := by
    intro hactive
    have hok : (Carries.transaction s t).ensureActive = .ok () := if_pos hactive
    rw [hok] at hanswer
    cases hanswer
  exact ⟨Carries.asked_eq_self hunusable, rfl⟩

/-- **A thread goes astray only where the transaction of an attempt is active.** -/
theorem active_of_strays {f : Machine interface σ γ} (h : f.Strays (Refuses T) m i) :
    ∃ t ∈ T, (Carries.transaction f.shared t).status = .active := by
  obtain ⟨phase, visit, r, next, q, -, -, -, ⟨answer, hrefuses⟩, -, hstrays⟩ := h
  obtain ⟨t, ht, rfl⟩ := exists_of_refuses hrefuses
  refine ⟨t, ht, ?_⟩
  -- a transaction that is not active would have refused
  by_contra hstatus
  refine hstrays (.error (Transaction.notActive (Carries.transaction f.shared t).status))
    ⟨ht, _, hstatus, rfl⟩ ?_
  have hrefused : (Carries.transaction f.shared t).ensureActive =
      .error (Transaction.notActive (Carries.transaction f.shared t).status) := if_neg hstatus
  rw [Carries.serve_ensureActive, hrefused]
  rfl

/-- The errors by which an attempt fails. -/
def Attempt.Fails (x : Attempt) (e : Error) : Prop :=
  match x.transaction? with
  | some _ => ∃ status, status ≠ .active ∧ e = Transaction.notActive status
  | none => e = .transaction (.notActive "NONE")

/-- **An attempt is a detour** for a program that goes on after it as if it had not been made,
if it fails. -/
theorem Attempt.detours {α : Type} {f : Result x.Answer → Action α} {q : Action α}
    (hT : ∀ t ∈ x.transaction?, t ∈ T)
    (h : ∀ e, x.Fails e → (f (.error e)).Detours (Refuses T) q) :
    (x.action.bind f).Detours (Refuses T) q := by
  cases htransaction : x.transaction? with
  | none =>
    rw [Attempt.action_eq_of_none htransaction]
    exact h _ (by simp [Attempt.Fails, htransaction])
  | some t =>
    obtain ⟨next, haction, hnext⟩ := x.exists_action_eq htransaction
    rw [haction]
    -- which status refuses is left to the run; here it is enough that one does
    refine .detour ⟨.error (Transaction.notActive .completing), hT t htransaction, .completing,
      nofun, rfl⟩ ?_
    rintro answer ⟨-, status, hstatus, rfl⟩
    dsimp only [Program.done_bind]
    rw [hnext]
    exact h _ (by simpa [Attempt.Fails, htransaction] using ⟨status, hstatus, rfl⟩)

/-- **A program with attempts in between**, under transactions of `T`, and the program without
them. Attempts stand at any place; what comes after one may depend on how it fails, as long
as it is the same program otherwise. -/
inductive Inserted (T : Set TransactionId) {α : Type} : Action α → Action α → Prop
  | none (p : Action α) : Inserted T p p
  | after {β : Type} (p : Action β) {f g : β → Action α} :
    (∀ b, Inserted T (f b) (g b)) → Inserted T (p.bind f) (p.bind g)
  | attempt (x : Attempt) {f : Result x.Answer → Action α} {q : Action α} :
    (∀ t ∈ x.transaction?, t ∈ T) → (∀ e, x.Fails e → Inserted T (f (.error e)) q) →
    Inserted T (x.action.bind f) q

/-- The attempts are detours. -/
theorem Inserted.detours {α : Type} {p q : Action α} (h : Inserted T p q) :
    p.Detours (Refuses T) q := by
  induction h with
  | none p => exact .refl p
  | after p _ ih => exact .after p ih
  | attempt x hT _ ih => exact x.detours hT ih

omit [Server interface σ] [Carries σ] in
/-- Machines that are about to start, with attempts in between and without. -/
theorem start_detours {ps qs : List (Action γ)} (s : σ) (h : List.Forall₂ (Inserted T) ps qs) :
    (Machine.start s ps).Detours (Refuses T) (.start s qs) :=
  .start s (h.imp fun _ _ hp => hp.detours)

/-- **None of the transactions of `T` is active** at any point of a run. -/
def Unusable (T : Set TransactionId) (m : Machine interface σ γ)
    (schedule : List (Machine.Move interface γ)) : Prop :=
  ∀ earlier, earlier <+: schedule →
    ∀ t ∈ T, (Carries.transaction (m.run earlier).machine.shared t).status ≠ .active

/-- Then every attempt is refused. -/
theorem detours_of_unusable {f : Machine interface σ γ}
    {schedule schedule' : List (Machine.Move interface γ)}
    (h : f.Apace (Refuses T) m schedule schedule')
    (hunusable : Unusable T f schedule ∨ Unusable T m schedule') :
    (f.run schedule).Detours (Refuses T) (m.run schedule') := by
  rcases h with hrefused | @⟨earlier, later, earlier', later', i, hdetours, hstrays⟩
  · exact hrefused
  · obtain ⟨t, ht, hactive⟩ := active_of_strays hstrays
    rcases hunusable with hunusable | hunusable
    · exact absurd hactive (hunusable earlier (List.prefix_append _ _) t ht)
    · rw [hdetours.machine.shared] at hactive
      exact absurd hactive (hunusable earlier' (List.prefix_append _ _) t ht)

/-! ## The whole -/

/-- **A transaction that cannot be used leaves everything as it was**, whatever the history so
far and the state of queue, consumer and transaction. -/
structure RefusalHarmless (σ : Type) [Server interface σ] [Carries σ] : Prop where
  /-- The attempt returns the status at its first move, be it that the request for it was made
  before or is made then: the one event of it leaves the state as it is, and the machine is the
  same but that thread `i` has the error. -/
  refused {γ : Type} {m : Machine interface σ γ} {i : Nat} {x : Attempt} {t : TransactionId}
    {next : Result x.Answer → Action γ} {phase : Phase interface γ}
    (waker : Machine.Waker interface γ) (later : List (Machine.Move interface γ)) :
    x.transaction? = some t → (Carries.transaction m.shared t).status ≠ .active →
    m.threads[i]? = some phase → phase.isAsleep = false →
    phase.program = x.action.bind next →
    let e := Transaction.notActive (Carries.transaction m.shared t).status
    m.run (.advance waker i :: later) =
      ((m.assign i (next (.error e))).run later).after [refusal i m.shared t e]
  /-- Without a transaction a subscriber in transactional mode fails before it has asked
  anything. -/
  without_transaction {x : Attempt} : x.transaction? = none →
    x.action = .done (.error (.transaction (.notActive "NONE")))
  /-- Such an attempt may be made at any point of a run, and what comes after it is what would
  have come without it. -/
  insert {γ : Type} {m : Machine interface σ γ} {i : Nat} {x : Attempt} {t : TransactionId}
    {p : Action γ} (waker : Machine.Waker interface γ)
    (later : List (Machine.Move interface γ)) : x.transaction? = some t →
    (Carries.transaction m.shared t).status ≠ .active →
    m.threads[i]? = some (.running p) →
    let e := Transaction.notActive (Carries.transaction m.shared t).status
    (m.assign i (x.action.bind fun _ => p)).run (.advance waker i :: later) =
      (m.run later).after [refusal i m.shared t e]
  /-- **Every run with any number of attempts is one without them**: up to the first attempt, if
  any, that finds its transaction active, … -/
  leave_out {γ : Type} (T : Set TransactionId) {ps qs : List (Action γ)} (s : σ) :
    List.Forall₂ (Inserted T) ps qs →
    ∃ translate : List (Machine.Move interface γ) → List (Machine.Move interface γ),
      InStep translate ∧ ∀ schedule,
        (Machine.start s ps).Apace (Refuses T) (.start s qs) schedule (translate schedule)
  /-- … and every run without them is one with them, as far. -/
  put_in {γ : Type} (T : Set TransactionId) {ps qs : List (Action γ)} (s : σ) :
    List.Forall₂ (Inserted T) ps qs →
    ∃ translate : List (Machine.Move interface γ) → List (Machine.Move interface γ),
      InStep translate ∧ ∀ schedule,
        (Machine.start s ps).Apace (Refuses T) (.start s qs) (translate schedule) schedule
  /-- Where the transactions are never active, this is the whole of the runs. -/
  unusable {γ : Type} {T : Set TransactionId} {f m : Machine interface σ γ}
    {schedule schedule' : List (Machine.Move interface γ)} :
    f.Apace (Refuses T) m schedule schedule' → Unusable T f schedule ∨ Unusable T m schedule' →
    (f.run schedule).Detours (Refuses T) (m.run schedule')
  /-- Runs that differ in refused attempts only return the same: what a thread has with them it
  has without, … -/
  result {γ : Type} {T : Set TransactionId} {f m : Machine interface σ γ} {i : Nat} {a : γ} :
    f.Detours (Refuses T) m → f.result? i = some a → m.result? i = some a
  /-- … and what it has without them it has once it has made the attempts it is at, unless one
  of them finds its transaction active. -/
  exists_result {γ : Type} {T : Set TransactionId} {f m : History interface σ γ} {i : Nat}
    {a : γ} : f.Detours (Refuses T) m → m.machine.result? i = some a →
    ∃ moves, (f.play moves).Detours (Refuses T) m ∧
      ((f.play moves).machine.result? i = some a ∨
        ∃ t ∈ T, (Carries.transaction m.machine.shared t).status = .active)

/-- **Refusals are harmless.** -/
theorem refusal_harmless (σ : Type) [Server interface σ] [Carries σ] : RefusalHarmless σ where
  refused waker later htransaction hstatus hi hawake hprogram :=
    run_attempt htransaction hstatus hi hawake hprogram waker later
  without_transaction h := Attempt.action_eq_of_none h
  insert waker later htransaction hstatus hi := run_insert htransaction hstatus hi waker later
  leave_out T _ _ s h := (start_detours s h).forward (harmless σ T)
  put_in T _ _ s h := (start_detours s h).backward (harmless σ T)
  unusable h hunusable := detours_of_unusable h hunusable
  result h := h.result?
  exists_result {_ T _ _ _ _} h ha := by
    obtain ⟨moves, hdetours, hresult⟩ := h.exists_result? (harmless σ T) ha
    refine ⟨moves, hdetours, hresult.imp_right fun hstrays => ?_⟩
    obtain ⟨t, ht, hactive⟩ := active_of_strays hstrays
    -- refused attempts leave the state as it was, so it is active without them as well
    rw [hdetours.machine.shared] at hactive
    exact ⟨t, ht, hactive⟩

end MessageIntake.Refusal
