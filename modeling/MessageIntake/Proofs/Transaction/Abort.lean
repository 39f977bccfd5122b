import MessageIntake.Proofs.Transaction.TwoPhase

/-!
# What a commit says of an abort

A commit in which somebody fails to prepare has everybody rolled back.
Its result is the abort, with the text of that failure, as long as nobody
fails to roll back: the first failure of a rollback is returned in its
place (`reports_abort`). Such a failure can be any error, and it is also
what a commit returns that went through and failed at a participant, so
the result does not tell the two apart (`exists_same_result`).
-/

namespace MessageIntake.Transaction

open Client

variable {S : Surroundings} {t : TransactionId} {all : List Participant} {rs : List Reply}

/-! ## Failures by the notice -/

/-- The replies to one kind of notice. -/
def repliesTo (notice : Notice) (rs : List Reply) : List Reply :=
  rs.filter fun r => r.notice = notice

/-- The first failure at one kind of notice. -/
def failureAt (notice : Notice) (rs : List Reply) : Option Error :=
  firstError (repliesTo notice rs)

theorem resultOf_eq_ok_iff {failure : Option Error} :
    resultOf failure = .ok () ↔ failure = none := by
  cases failure <;> simp [resultOf]

theorem resultOf_eq_error_iff {failure : Option Error} {e : Error} :
    resultOf failure = .error e ↔ failure = some e := by
  cases failure <;> simp [resultOf]

namespace Tells

variable {notice other : Notice} {asked all : List Participant} {later : List Reply}

theorem notice_eq (h : Tells notice all rs) : ∀ r ∈ rs, r.notice = notice := by
  intro r hr
  have htold : r.told ∈ all.map (·, notice) := h ▸ List.mem_map_of_mem hr
  obtain ⟨p, -, hp⟩ := List.mem_map.mp htold
  exact congrArg Prod.snd hp.symm

theorem repliesTo_self (h : Tells notice all rs) : repliesTo notice rs = rs :=
  List.filter_eq_self.mpr fun r hr => by simp [h.notice_eq r hr]

theorem repliesTo_of_ne (h : Tells notice all rs) (hne : notice ≠ other) :
    repliesTo other rs = [] :=
  List.filter_eq_nil_iff.mpr fun r hr => by simp [h.notice_eq r hr, hne]

/-- After one kind of notice and another, the replies are told apart. -/
theorem repliesTo_append (h : Tells notice asked rs) (hlater : Tells other all later)
    (hne : notice ≠ other) :
    repliesTo notice (rs ++ later) = rs ∧ repliesTo other (rs ++ later) = later := by
  have happend : ∀ n, repliesTo n (rs ++ later) = repliesTo n rs ++ repliesTo n later :=
    fun _ => List.filter_append _ _
  rw [happend, happend, h.repliesTo_self, h.repliesTo_of_ne hne, hlater.repliesTo_self,
    hlater.repliesTo_of_ne hne.symm, List.append_nil, List.nil_append]
  exact ⟨rfl, rfl⟩

end Tells

theorem Tells.everyone (notice : Notice) (answer : Result Unit) (all : List Participant) :
    Tells notice all (all.map (⟨·, notice, answer⟩)) := by
  simp [Tells, Reply.told]

theorem firstError_map_ok (all : List Participant) (notice : Notice) (later : List Reply) :
    firstError (all.map (⟨·, notice, .ok ()⟩) ++ later) = firstError later := by
  have hnone : (all.map (⟨·, notice, .ok ()⟩)).findSome? Reply.error? = none :=
    List.findSome?_eq_none_iff.mpr fun r hr => by
      obtain ⟨p, -, rfl⟩ := List.mem_map.mp hr
      rfl
  rw [firstError, List.findSome?_append, hnone, Option.none_or]
  rfl

/-- The first phase asks some of the participants, and its result is the
first failure. -/
theorem Prepares.tells {r : Result Unit} (h : Prepares all rs r) :
    ∃ asked, Tells .prepare asked rs ∧ r = resultOf (firstError rs) := by
  cases h with
  | everyone =>
    have hfirst := firstError_map_ok all .prepare []
    rw [List.append_nil] at hfirst
    exact ⟨all, .everyone _ _ _, by rw [hfirst]; rfl⟩
  | failed earlier cause hall =>
    rename_i rest p
    refine ⟨earlier ++ [p], ?_, by rw [firstError_map_ok]; rfl⟩
    simp [Tells, Reply.told]

/-- **How a commit goes**, by the failures at each notice. -/
theorem Commits.cases {status : TransactionStatus} {r : Result Unit}
    (h : Commits all rs status r) :
    (∃ cause, failureAt .prepare rs = some cause ∧ status = .rolledBack ∧
      Tells .rollback all (repliesTo .rollback rs) ∧
      r = .error ((failureAt .rollback rs).getD (.transaction (.aborted cause.message)))) ∨
    (failureAt .prepare rs = none ∧ status = .committed ∧
      Tells .commit all (repliesTo .commit rs) ∧ r = resultOf (failureAt .commit rs)) := by
  cases h with
  | committed hprepares htells =>
    rename_i prepares commits
    obtain ⟨asked, hasked, hresult⟩ := hprepares.tells
    obtain ⟨hprepare, hcommit⟩ := hasked.repliesTo_append htells (by decide)
    unfold failureAt
    rw [hprepare, hcommit]
    exact .inr ⟨resultOf_eq_ok_iff.mp hresult.symm, rfl, htells, rfl⟩
  | aborted hprepares htells =>
    rename_i prepares rollbacks cause
    obtain ⟨asked, hasked, hresult⟩ := hprepares.tells
    obtain ⟨hprepare, hrollback⟩ := hasked.repliesTo_append htells (by decide)
    unfold failureAt
    rw [hprepare, hrollback]
    exact .inl ⟨cause, resultOf_eq_error_iff.mp hresult.symm, rfl, htells, rfl⟩

/-! ## The commit that takes the participants -/

variable {C : Company t} {w : World} {calls : List Call}

/-- By every account of the commit that has taken the participants, they
are committed or rolled back, and the transaction with them. -/
theorem commits_of_winner {schedule : List (Machine.Move interface (Result Unit))} {i : Nat}
    {log : List (Exchange interface)} {r : Result Unit}
    (hwon : i ∈ winners t (runCalls C.toSurroundings t w calls schedule).trace)
    (h : Account ((Call.complete .commit).action t)
      (eventsOf i (runCalls C.toSurroundings t w calls schedule).trace) log r) :
    Commits (enlisted t (runCalls C.toSurroundings t w calls schedule).trace) (replies log)
      ((runCalls C.toSurroundings t w calls schedule).machine.shared.transaction t).status r := by
  obtain ⟨next, visit, s, later, log', hnext, hevents, rfl, hlater, hwinner, -⟩ :=
    account_of_winner hwon h
  have hmem : ∀ e ∈ .of i visit s (.under (.transaction t .begin)) :: later,
      e ∈ (runCalls C.toSurroundings t w calls schedule).trace :=
    fun e he => (mem_eventsOf.mp (hevents ▸ he)).1
  have hstate : s.transaction t = ⟨.active, _⟩ :=
    transaction_eq_of_winner (hmem _ List.mem_cons_self)
      (Option.isSome_iff_exists.mpr ⟨i, hwinner⟩)
  rw [hstate] at hlater
  obtain ⟨status, hfinal, hcommits, hfinish⟩ :=
    Completion.completes_of_path .commit hnext hlater.path
  obtain ⟨e, he, hrequest⟩ := hlater.exists_event _ hfinish
  rw [status_of_section (hmem e (List.mem_cons_of_mem _ he)) hrequest rfl hfinal]
  exact hcommits

/-- **What a commit says**, by the replies of those who take part: of an
abort it says that it is one, unless the first failure of a rollback is
one of `Drowns`, which is returned instead. -/
structure Verdict (Drowns : Error → Prop) (all : List Participant) (rs : List Reply)
    (status : TransactionStatus) (r : Result Unit) : Prop where
  /-- If somebody fails to prepare, everybody is rolled back. -/
  rolledBack : (failureAt .prepare rs).isSome →
    status = .rolledBack ∧ Tells .rollback all (repliesTo .rollback rs)
  /-- The result is then the abort, with the text of the first failure. -/
  aborted : ∀ cause ∈ failureAt .prepare rs, (∀ e ∈ failureAt .rollback rs, ¬ Drowns e) →
    r = .error (.transaction (.aborted cause.message))
  drowned : (failureAt .prepare rs).isSome →
    ∀ e ∈ failureAt .rollback rs, Drowns e → r = .error e
  /-- If nobody fails to prepare, everybody is committed, and the result is
  the first failure at that. -/
  committed : failureAt .prepare rs = none → status = .committed ∧
    Tells .commit all (repliesTo .commit rs) ∧ r = resultOf (failureAt .commit rs)

/-- Any failure of a rollback drowns the abort. -/
theorem Commits.verdict {status : TransactionStatus} {r : Result Unit}
    (h : Commits all rs status r) : Verdict (fun _ => True) all rs status r := by
  rcases h.cases with ⟨cause, hcause, hstatus, htells, hr⟩ | ⟨hnone, hcommitted⟩
  · refine ⟨fun _ => ⟨hstatus, htells⟩, fun c hc hquiet => ?_, fun _ e he _ => ?_,
      fun hnone => ?_⟩
    · have hrollback : failureAt .rollback rs = none :=
        Option.eq_none_iff_forall_not_mem.mpr fun e he => hquiet e he trivial
      obtain rfl : cause = c := Option.some.inj (hcause.symm.trans hc)
      rw [hr, hrollback, Option.getD_none]
    · rw [hr, Option.mem_def.mp he, Option.getD_some]
    · rw [hnone] at hcause
      cases hcause
  · refine ⟨fun hsome => ?_, fun c hc => ?_, fun hsome => ?_, fun _ => hcommitted⟩
    · simp [hnone] at hsome
    · simp [hnone] at hc
    · simp [hnone] at hsome

/-- A commit that rolled back and says something else than that it was
aborted says what drowned it. -/
theorem Verdict.drowns {Drowns : Error → Prop} {e : Error}
    (h : Verdict Drowns all rs .rolledBack (.error e))
    (he : ∀ reason, e ≠ .transaction (.aborted reason)) : Drowns e := by
  cases hcause : failureAt .prepare rs with
  | none => cases (h.committed hcause).1
  | some cause =>
    by_contra hdrowns
    have hsome : (failureAt .prepare rs).isSome := by rw [hcause]; rfl
    have hquiet : ∀ e' ∈ failureAt .rollback rs, ¬ Drowns e' := by
      intro e' he' hdrowns'
      obtain rfl := Except.error.inj (h.drowned hsome e' he' hdrowns')
      exact hdrowns hdrowns'
    exact he _ (Except.error.inj (h.aborted cause hcause hquiet))

/-- **What it means that a commit of `t` reports an abort**, unless an error
of `Drowns` drowns it, in a run of calls on `t`. -/
structure ReportsAbort (Drowns : Error → Prop) (t : TransactionId) (calls : List Call)
    (h : History interface (Setting S) (Result Unit)) : Prop where
  /-- The transaction is active until a call takes the participants. -/
  active : ∀ before e later, h.trace = before ++ e :: later →
    ((e.before.transaction t).status = .active ↔ winners t before = [])
  /-- A commit that has returned has started with its section, and has taken
  the participants if it found the transaction active. -/
  starts : ∀ i r, calls[i]? = some (.complete .commit) → h.machine.result? i = some r →
    (Call.complete .commit).Starts t i h.trace r
  /-- Every commit that has returned has an account, by the events of its
  thread. -/
  account : ∀ i r, calls[i]? = some (.complete .commit) → h.machine.result? i = some r →
    ∃ log, Account ((Call.complete .commit).action t) (eventsOf i h.trace) log r
  /-- By every account of the commit that has taken the participants, it says
  what became of all whose enlistment was accepted. -/
  verdict : ∀ i ∈ winners t h.trace, ∀ log r, calls[i]? = some (.complete .commit) →
    Account ((Call.complete .commit).action t) (eventsOf i h.trace) log r →
    Verdict Drowns (enlisted t h.trace) (replies log) (h.machine.shared.transaction t).status r
  /-- If no participant waits, every commit can be brought to its end. -/
  returns : (∀ turn id notice, Prompt (Setting S) (S.react turn id notice)) →
    ∀ i, calls[i]? = some (.complete .commit) →
      ∃ more, ((h.machine.run more).machine.result? i).isSome

/-- **A commit reports an abort, unless a rollback fails**: whatever the
participants answer and whatever other calls are made meanwhile. -/
theorem reports_abort (C : Company t) (w : World) (calls : List Call)
    (schedule : List (Machine.Move interface (Result Unit))) :
    ReportsAbort (fun _ => True) t calls (runCalls C.toSurroundings t w calls schedule) where
  active := fun before e later htrace => active_iff_of_trace htrace
  starts := fun i r hc hr => by
    obtain ⟨log, haccount⟩ := exists_account hc hr
    exact Call.starts haccount
  account := fun i r hc hr => exists_account hc hr
  verdict := fun i hwon log r _ haccount => (commits_of_winner hwon haccount).verdict
  returns := fun hprompt i hc =>
    Machine.returns (p := (Call.complete .commit).action t) (by simp [Machine.programs_start, hc])
      (Call.prompt hprompt _) schedule

/-! ## What a caller cannot tell -/

/-- Participants that answer each notice in one way. -/
def Company.ofAnswers (t : TransactionId) (answer : Notice → Result Unit) : Company t where
  toSurroundings :=
    { (default : Surroundings) with react := fun _ _ notice => .done (answer notice) }
  uses := fun _ _ _ => .done _

/-- A participant that answers each notice in one way is enlisted, and the
transaction is committed. -/
def commitOf (answer : Notice → Result Unit) :
    History interface (Setting (Company.ofAnswers 0 answer).toSurroundings) (Result Unit) :=
  runCalls (Company.ofAnswers 0 answer).toSurroundings 0 {} [.enlist (.other 0), .complete .commit]
    (.advance .longest 0 :: List.replicate 6 (.advance .longest 1))

/-- A participant that refuses to prepare, and fails with `e` to roll
back. -/
def refusing (cause e : Error) : Notice → Result Unit
  | .prepare => .error cause
  | .rollback => .error e
  | .commit | .inDoubt => .ok ()

/-- A participant that agrees, and fails with `e` to commit. -/
def faltering (e : Error) : Notice → Result Unit
  | .commit => .error e
  | .prepare | .rollback | .inDoubt => .ok ()

/-- **A commit says the same of an abort and of a commit that failed at a
participant**: any error is the result of both. -/
theorem exists_same_result (e : Error) :
    ∃ aborting committing : Notice → Result Unit,
      ((commitOf aborting).machine.shared.transaction 0).status = .rolledBack ∧
      ((commitOf committing).machine.shared.transaction 0).status = .committed ∧
      (commitOf aborting).machine.result? 1 = some (.error e) ∧
      (commitOf committing).machine.result? 1 = some (.error e) := by
  refine ⟨refusing .queueClosed e, faltering e, ?_⟩
  simp [commitOf, runCalls, Company.ofAnswers, refusing, faltering, Machine.run, Machine.start,
    Machine.result?, Machine.advance, Machine.serve, Machine.deliver, Phase.result?, History.step,
    Server.serve, World.serve, Setting.renewed, Setting.transaction, Call.action,
    Completion.action, commit, prepareAll, notifyAll, Action.andThen, Client.transaction, under,
    notify, Client.log, Program.request, Transaction.run, resultOf, List.replicate]

/-- A channel that is lost while a participant prepares. -/
def severed : Error := .channel (.closed 320 "CONNECTION_FORCED")

/-- **A commit may hide that it was an abort**: the participant that could
not prepare cannot roll back either, and that is all the caller hears. -/
theorem not_reportsAbort : ¬ ReportsAbort (fun _ => False) 0
    [.enlist (.other 0), .complete .commit] (commitOf (refusing severed severed)) := by
  intro h
  have hresult : (commitOf (refusing severed severed)).machine.result? 1 =
      some (.error severed) := by rfl
  have hstatus : ((commitOf (refusing severed severed)).machine.shared.transaction 0).status =
      .rolledBack := by rfl
  have hwon : 1 ∈ winners 0 (commitOf (refusing severed severed)).trace :=
    List.mem_singleton.mpr rfl
  obtain ⟨log, haccount⟩ := h.account 1 _ rfl hresult
  have hverdict := h.verdict 1 hwon log _ rfl haccount
  rw [hstatus] at hverdict
  exact hverdict.drowns fun reason hreason => by cases hreason

end MessageIntake.Transaction
