import MessageIntake.Proofs.Machine.Account
import MessageIntake.Proofs.Transaction.Once
import Mathlib.Data.List.Basic

/-!
# All or nothing

What a call that completes a transaction asks of the participants, and
what it makes of their answers. A commit asks them to prepare, in order,
up to the first that fails; then either all are told to commit, or all
are told to roll back. A participant that fails at its outcome does not
keep the others from being told theirs, and the first failure is the
result.

The answers are read off an account of the call, so `all_or_nothing` is
about whatever the participants do, which includes using the transaction
again while they are told. That they bring about no notices of their own
is because whatever they start on the transaction is refused
(`Uses.notices_eq_nil`). What the call does by itself is in every path
through its program (`Call.completes_of_path`).
-/

namespace MessageIntake.Transaction

open Client

variable {S : Surroundings} {t : TransactionId}

/-! ## Replies -/

/-- What a participant answered a notice. -/
structure Reply where
  participant : Participant
  notice : Notice
  answer : Result Unit

namespace Reply

/-- What was told. -/
def told (r : Reply) : Participant × Notice := (r.participant, r.notice)

/-- The failure, if it is one. -/
def error? (r : Reply) : Option Error :=
  match r.answer with
  | .ok _ => none
  | .error e => some e

end Reply

/-- The reply in an exchange. -/
def reply? : Exchange interface → Option Reply
  | ⟨Request.notify p notice, answer⟩ => some ⟨p, notice, answer⟩
  | _ => none

/-- The replies to the notices of a program, in the order they were
given. -/
def replies (log : List (Exchange interface)) : List Reply := log.filterMap reply?

@[simp] theorem replies_nil : replies [] = [] := rfl

@[simp] theorem replies_append (log later : List (Exchange interface)) :
    replies (log ++ later) = replies log ++ replies later := List.filterMap_append

@[simp] theorem replies_cons_under (lock : Client.Section) (a : lock.Answer)
    (log : List (Exchange interface)) :
    replies (⟨Request.under lock, a⟩ :: log) = replies log := rfl

@[simp] theorem replies_cons_outside (call : Outside) (a : call.Answer)
    (log : List (Exchange interface)) :
    replies (⟨Request.outside call, a⟩ :: log) = replies log := rfl

/-- The first failure. -/
def firstError (rs : List Reply) : Option Error := rs.findSome? Reply.error?

/-- Everybody was told the same, once and in order, whatever they
answered. -/
def Tells (notice : Notice) (all : List Participant) (rs : List Reply) : Prop :=
  rs.map Reply.told = all.map (·, notice)

/-- **The first phase of a commit**: everybody agrees, or those up to the
first that fails were asked and nobody else. -/
inductive Prepares (all : List Participant) : List Reply → Result Unit → Prop
  | everyone : Prepares all (all.map (⟨·, .prepare, .ok ()⟩)) (.ok ())
  | failed (earlier : List Participant) {rest : List Participant} {p : Participant}
    (cause : Error) :
    all = earlier ++ p :: rest →
    Prepares all (earlier.map (⟨·, .prepare, .ok ()⟩) ++ [⟨p, .prepare, .error cause⟩])
      (.error cause)

/-- **A commit in two phases**, with the status that it ends in and its
result. -/
inductive Commits (all : List Participant) : List Reply → TransactionStatus → Result Unit → Prop
  | committed {prepares commits : List Reply} :
    Prepares all prepares (.ok ()) → Tells .commit all commits →
    Commits all (prepares ++ commits) .committed (resultOf (firstError commits))
  | aborted {prepares rollbacks : List Reply} {cause : Error} :
    Prepares all prepares (.error cause) → Tells .rollback all rollbacks →
    Commits all (prepares ++ rollbacks) .rolledBack
      (.error ((firstError rollbacks).getD (.transaction (.aborted cause.message))))

/-- **What a call makes of the participants that it takes**: their
replies, the final status, and the result. -/
def Call.Completes (all : List Participant) (rs : List Reply) (status : TransactionStatus)
    (result : Result Unit) : Call → Prop
  | .enlist _ => False
  | .complete .commit => Commits all rs status result
  | .complete .rollback =>
    Tells .rollback all rs ∧ status = .rolledBack ∧ result = resultOf (firstError rs)
  | .complete .markInDoubt => Tells .inDoubt all rs ∧ status = .inDoubt ∧ result = .ok ()
  | .discard => Tells .rollback all rs ∧ status = .rolledBack ∧ result = .ok ()

/-! ## Paths through a completion -/

section Paths

variable {α : Type} {log : List (Exchange interface)}

theorem path_of_notify_bind {p : Participant} {notice : Notice} {f : Result Unit → Action α}
    {b : α} (h : ((notify p notice).bind f).Path log b) :
    ∃ a later, (f a).Path later b ∧ replies log = ⟨p, notice, a⟩ :: replies later := by
  obtain ⟨a, later, rfl, hf⟩ := Program.Path.of_request_bind h
  exact ⟨a, later, hf, rfl⟩

theorem path_of_log_bind {level : Level} {text : String} {f : Unit → Action α} {b : α}
    (h : ((Client.log level text).bind f).Path log b) :
    ∃ later, (f ()).Path later b ∧ log = ⟨.outside (.log level text), ()⟩ :: later := by
  obtain ⟨a, later, rfl, hf⟩ := Program.Path.of_request_bind h
  exact ⟨later, hf, rfl⟩

theorem path_of_finish_bind {outcome : TransactionStatus} {f : Unit → Action α} {b : α}
    (h : ((Client.transaction t (.finish outcome)).bind f).Path log b) :
    ∃ later, (f ()).Path later b ∧
      log = ⟨.under (.transaction t (.finish outcome)), ()⟩ :: later := by
  obtain ⟨a, later, rfl, hf⟩ := Program.Path.of_request_bind h
  exact ⟨later, hf, rfl⟩

theorem prepareAll_path : ∀ (all : List Participant) {log : List (Exchange interface)}
    {r : Result Unit}, (prepareAll all).Path log r → Prepares all (replies log) r := by
  intro all
  induction all with
  | nil =>
    intro log r h
    obtain ⟨rfl, rfl⟩ := Program.Path.of_done h
    exact .everyone
  | cons p rest ih =>
    intro log r h
    obtain ⟨a, later, hrest, hreplies⟩ := path_of_notify_bind h
    rw [hreplies]
    cases a with
    | error cause =>
      obtain ⟨rfl, rfl⟩ := Program.Path.of_done hrest
      exact .failed [] cause rfl
    | ok =>
      have hprepares := ih hrest
      generalize replies later = rs at hprepares ⊢
      cases hprepares with
      | everyone => exact .everyone
      | failed earlier cause hall =>
        subst hall
        exact .failed (p :: earlier) cause rfl

theorem notifyAll_path {notice : Notice} : ∀ (all : List Participant)
    {log : List (Exchange interface)} {failure : Option Error},
    (notifyAll notice all).Path log failure →
      Tells notice all (replies log) ∧ failure = firstError (replies log) := by
  intro all
  induction all with
  | nil =>
    intro log failure h
    obtain ⟨rfl, rfl⟩ := Program.Path.of_done h
    exact ⟨rfl, rfl⟩
  | cons p rest ih =>
    intro log failure h
    obtain ⟨a, later, hrest, hreplies⟩ := path_of_notify_bind h
    rw [hreplies]
    cases a with
    | ok =>
      obtain ⟨htells, hfailure⟩ := ih hrest
      exact ⟨congrArg (_ :: ·) htells, hfailure⟩
    | error e =>
      obtain ⟨later', htell, rfl⟩ := path_of_log_bind hrest
      obtain ⟨failure', told, last, rfl, htold, hlast⟩ := Program.Path.of_bind htell
      obtain ⟨rfl, rfl⟩ := Program.Path.of_done hlast
      obtain ⟨htells, -⟩ := ih htold
      rw [List.append_nil]
      exact ⟨congrArg (_ :: ·) htells, rfl⟩

theorem doubtAll_path : ∀ (all : List Participant) {log : List (Exchange interface)} {u : Unit},
    (doubtAll all).Path log u → Tells .inDoubt all (replies log) := by
  intro all
  induction all with
  | nil =>
    intro log u h
    obtain ⟨rfl, -⟩ := Program.Path.of_done h
    rfl
  | cons p rest ih =>
    intro log u h
    obtain ⟨a, later, hrest, hreplies⟩ := path_of_notify_bind h
    rw [hreplies]
    exact congrArg (_ :: ·) (ih hrest)

/-- Telling everybody the same, then setting the outcome. -/
theorem tell_and_finish_path {notice : Notice} {all : List Participant}
    {outcome : TransactionStatus} {f : Option Error → Action α} {b : α}
    (h : ((notifyAll notice all).bind fun failure =>
      (Client.transaction t (.finish outcome)).bind fun _ => f failure).Path log b) :
    ∃ told later, Tells notice all (replies told) ∧
      log = told ++ ⟨.under (.transaction t (.finish outcome)), ()⟩ :: later ∧
      (f (firstError (replies told))).Path later b := by
  obtain ⟨failure, told, rest, rfl, htold, hrest⟩ := Program.Path.of_bind h
  obtain ⟨htells, rfl⟩ := notifyAll_path all htold
  obtain ⟨later, hlater, rfl⟩ := path_of_finish_bind hrest
  exact ⟨told, later, htells, rfl, hlater⟩

/-- **Every path through a completion that has taken the participants**
completes them, and sets the status. -/
theorem Completion.completes_of_path (how : Completion) {all : List Participant}
    {next : Result (List Participant) → Action (Result Unit)} {r : Result Unit}
    (hnext : how.action t = .ask (.under (.transaction t .begin)) next)
    (h : (next (.ok all)).Path log r) :
    ∃ status, status.isFinal ∧ (Call.complete how).Completes all (replies log) status r ∧
      ⟨.under (.transaction t (.finish status)), ()⟩ ∈ log := by
  cases how with
  | commit =>
    cases hnext
    dsimp only [Program.done_bind] at h
    obtain ⟨agreed, asked, rest, rfl, hasked, hrest⟩ := Program.Path.of_bind h
    have hprepares := prepareAll_path all hasked
    cases agreed with
    | error cause =>
      obtain ⟨last, htell, rfl⟩ := path_of_log_bind hrest
      obtain ⟨told, later, htells, rfl, hlast⟩ := tell_and_finish_path htell
      have hresult : later = [] ∧ r =
          .error ((firstError (replies told)).getD (.transaction (.aborted cause.message))) := by
        cases hfirst : firstError (replies told) <;> rw [hfirst] at hlast <;>
          exact Program.Path.of_done hlast
      obtain ⟨rfl, rfl⟩ := hresult
      refine ⟨.rolledBack, rfl, ?_, by simp⟩
      have hreplies := Commits.aborted hprepares htells
      simpa [Call.Completes] using hreplies
    | ok =>
      obtain ⟨told, last, htells, rfl, hlog⟩ := tell_and_finish_path hrest
      obtain ⟨later, hlast, rfl⟩ := path_of_log_bind hlog
      obtain ⟨rfl, rfl⟩ := Program.Path.of_done hlast
      refine ⟨.committed, rfl, ?_, by simp⟩
      have hreplies := Commits.committed hprepares htells
      simpa [Call.Completes] using hreplies
  | rollback =>
    cases hnext
    dsimp only [Program.done_bind] at h
    obtain ⟨told, last, htells, rfl, hlog⟩ := tell_and_finish_path h
    obtain ⟨later, hlast, rfl⟩ := path_of_log_bind hlog
    obtain ⟨rfl, rfl⟩ := Program.Path.of_done hlast
    refine ⟨.rolledBack, rfl, ?_, by simp⟩
    simpa [Call.Completes] using htells
  | markInDoubt =>
    cases hnext
    dsimp only [Program.done_bind] at h
    obtain ⟨u, told, rest, rfl, htold, hrest⟩ := Program.Path.of_bind h
    have htells := doubtAll_path all htold
    obtain ⟨last, hlog, rfl⟩ := path_of_finish_bind hrest
    obtain ⟨later, hlast, rfl⟩ := path_of_log_bind hlog
    obtain ⟨rfl, rfl⟩ := Program.Path.of_done hlast
    refine ⟨.inDoubt, rfl, ?_, by simp⟩
    simpa [Call.Completes] using htells

/-- A transaction that is discarded while active counts as rolled back
before anybody is told. -/
theorem discard_completes_of_path {all : List Participant}
    {next : List Participant → Action (Result Unit)} {r : Result Unit}
    (hnext : Call.discard.action t = .ask (.under (.transaction t .abandon)) next)
    (h : (next all).Path log r) : Call.discard.Completes all (replies log) .rolledBack r := by
  cases hnext
  dsimp only [Program.done_bind] at h
  by_cases hempty : all.isEmpty
  · obtain rfl := List.isEmpty_iff.mp hempty
    obtain ⟨rfl, rfl⟩ := Program.Path.of_done h
    exact ⟨rfl, rfl, rfl⟩
  · rw [if_neg hempty] at h
    obtain ⟨u, rest, last, rfl, hrest, hlast⟩ := Program.Path.of_bind h
    obtain ⟨rfl, rfl⟩ := Program.Path.of_done hlast
    obtain ⟨more, htell, rfl⟩ := path_of_log_bind hrest
    obtain ⟨failure, told, later, rfl, htold, hlater⟩ := Program.Path.of_bind htell
    obtain ⟨htells, rfl⟩ := notifyAll_path all htold
    have hquiet : replies later = [] := by
      cases hfirst : firstError (replies told) with
      | none =>
        rw [hfirst] at hlater
        obtain ⟨rfl, -⟩ := Program.Path.of_done hlater
        rfl
      | some e =>
        rw [hfirst] at hlater
        have hlog : ((Client.log .warn s!"implicit rollback failed: {e.message}").bind
            .done).Path later u := by
          rw [Program.bind_done]
          exact hlater
        obtain ⟨logged, hdone, rfl⟩ := path_of_log_bind hlog
        obtain ⟨rfl, -⟩ := Program.Path.of_done hdone
        rfl
    refine ⟨?_, rfl, rfl⟩
    simpa [hquiet] using htells

end Paths

/-! ## What the participants bring about -/

section Accounts

variable {α : Type} {events : Trace S} {log : List (Exchange interface)}

/-- A section is served at once. -/
theorem account_of_section {part : Section} {next : part.Answer → Action α} {b : α}
    (h : Account (Program.ask (I := interface) (.under (.transaction t part)) next) events log b) :
    ∃ i visit s later log', events = .of i visit s (.under (.transaction t part)) :: later ∧
      log = ⟨.under (.transaction t part), ((s.transaction t).run part).2⟩ :: log' ∧
      Account (next ((s.transaction t).run part).2) later log' b := by
  cases h with
  | answers hserve hrest =>
    rename_i i visit s s' signal later log' a
    have hevent : Event.of (I := interface) i visit s (.under (.transaction t part)) =
        ⟨i, s, .under (.transaction t part), some a, s'⟩ := by
      rw [Event.of, hserve]
      rfl
    obtain ⟨s'', -, hserve'⟩ := Client.serve_section visit s t part
    rw [hserve', Served.answers.injEq] at hserve
    obtain ⟨-, -, rfl⟩ := hserve
    exact ⟨i, visit, s, later, log', by rw [hevent], rfl, hrest⟩
  | sleeps hserve hrest =>
    obtain ⟨s'', -, hserve'⟩ := Client.serve_section _ _ t part
    rw [hserve'] at hserve
    cases hserve
  | runs hserve hinner hrest =>
    obtain ⟨s'', -, hserve'⟩ := Client.serve_section _ _ t part
    rw [hserve'] at hserve
    cases hserve

/-- Whoever takes the participants finds the transaction active. -/
theorem winner?_eq_none_iff {i : Nat} {visit : Visit} {s : Setting S} (c : Call) :
    winner? t (.of (I := interface) i visit s (.under (.transaction t c.section))) = none ↔
      (∃ p, c = .enlist p) ∨ (s.transaction t).status ≠ .active := by
  obtain ⟨s', hevent⟩ := event_of_section (t := t) i visit s c.section
  rw [hevent]
  cases c with
  | enlist p => simp [Call.section, winner?]
  | complete how | discard =>
    by_cases hactive : (s.transaction t).status = .active <;>
      simp [Call.section, run, winner?, hactive]

/-- A completion that does not take the participants tells nobody. -/
theorem Completion.notices_eq_nil (how : Completion) {r : Result Unit}
    (h : Account (how.action t) events log r) (hlost : ∀ e ∈ events, winner? t e = none) :
    notices events = [] := by
  obtain ⟨next, hnext, hrefuse⟩ := how.returns_refusal t
  rw [hnext] at h
  obtain ⟨i, visit, s, later, log', rfl, -, hlater⟩ := account_of_section h
  have hlost := (winner?_eq_none_iff (.complete how)).mp (hlost _ List.mem_cons_self)
  have hactive : (s.transaction t).status ≠ .active := by simpa using hlost
  have hanswer : ((s.transaction t).run .begin).2 =
      .error (notActive (s.transaction t).status) := by
    simp [run, hactive]
  rw [hanswer, hrefuse] at hlater
  obtain ⟨rfl, -, -⟩ := hlater.of_done
  rfl

theorem discard_notices_eq_nil {u : Unit} (h : Account (discard t) events log u)
    (hlost : ∀ e ∈ events, winner? t e = none) : notices events = [] := by
  obtain ⟨i, visit, s, later, log', rfl, -, hlater⟩ := account_of_section h
  have hlost := (winner?_eq_none_iff .discard).mp (hlost _ List.mem_cons_self)
  have hactive : (s.transaction t).status ≠ .active := by simpa using hlost
  have hanswer : ((s.transaction t).run .abandon).2 = [] := by
    simp [run, hactive]
  rw [hanswer] at hlater
  obtain ⟨rfl, -, -⟩ := Account.of_done hlater
  rfl

theorem notice?_eq_none {e : Event interface (Setting S)}
    (he : ∀ p notice, e.request ≠ Request.notify p notice) : notice? e = none := by
  obtain ⟨i, s, r, answer, s'⟩ := e
  cases r with
  | under lock | outside call => rfl
  | notify p notice => exact absurd rfl (he p notice)

theorem notices_append (events later : Trace S) :
    notices (events ++ later) = notices events ++ notices later := List.filterMap_append

/-- **A program that uses a transaction tells nobody** unless it takes
the participants. -/
theorem Uses.notices_eq_nil {p : Action α} (huses : Uses t (Request.Spares t) p) {a : α}
    (h : Account p events log a) (hlost : ∀ e ∈ events, winner? t e = none) :
    notices events = [] := by
  induction huses generalizing events log with
  | done a =>
    obtain ⟨rfl, -, -⟩ := h.of_done
    rfl
  | ask hr _ ih =>
    rename_i r next _
    have hr' : ∀ p notice, r ≠ .notify p notice := by
      rintro p notice rfl
      exact hr
    have hruns : ∀ visit (s s' : Setting S) q,
        Server.serve (I := interface) visit s r ≠ .runs s' q := by
      intro visit s s' q hserve
      obtain ⟨p, notice, rfl⟩ := Request.notify_of_serve_runs hserve
      exact hr' p notice rfl
    obtain ⟨a, asked, later, log', rfl, hasked, -, hlater⟩ := h.of_ask hruns
    rw [List.forall_mem_append] at hlost
    rw [notices_append, ih a hlater hlost.2, List.append_nil, notices, List.filterMap_eq_nil_iff]
    exact fun e he => notice?_eq_none (hasked e he ▸ hr')
  | complete how _ ih =>
    obtain ⟨r, events₁, events₂, log₁, log₂, rfl, -, hhow, hrest⟩ := h.of_bind
    rw [List.forall_mem_append] at hlost
    rw [notices_append, how.notices_eq_nil hhow hlost.1, ih r hrest hlost.2]
    rfl
  | discard _ ih =>
    obtain ⟨r, events₁, events₂, log₁, log₂, rfl, -, hdiscard, hrest⟩ := h.of_bind
    rw [List.forall_mem_append] at hlost
    rw [notices_append, discard_notices_eq_nil hdiscard hlost.1, ih r hrest hlost.2]
    rfl

/-- **The notices in the events of a call are its own**, unless it takes
the participants on the way. -/
theorem notices_eq_told {C : Company t} {events : Trace C.toSurroundings} {p : Action α} {a : α}
    (h : Account p events log a) (hlost : ∀ e ∈ events, winner? t e = none) :
    notices events = (replies log).map Reply.told := by
  induction h with
  | done a => rfl
  | answers hserve hrest ih =>
    rename_i r next i visit s s' signal a later log' b
    have hlater := ih (List.forall_mem_cons.mp hlost).2
    cases r with
    | under lock | outside call => exact hlater
    | notify p notice =>
      obtain ⟨s'', reaction, hserve', -⟩ := serve_notify visit s p notice
      rw [hserve'] at hserve
      cases hserve
  | sleeps hserve hrest ih =>
    rename_i r next i visit s s' c deadline later log' b
    have hlater := ih (List.forall_mem_cons.mp hlost).2
    cases r with
    | under lock | outside call => exact hlater
    | notify p notice =>
      obtain ⟨s'', reaction, hserve', -⟩ := serve_notify visit s p notice
      rw [hserve'] at hserve
      cases hserve
  | runs hserve hinner hrest _ ih =>
    rename_i r next i visit s s' p inner later innerLog log' a b _
    obtain ⟨hlost₁, hlost₂⟩ := List.forall_mem_append.mp (List.forall_mem_cons.mp hlost).2
    have hlater := ih hlost₂
    obtain ⟨q, notice, rfl⟩ := Request.notify_of_serve_runs hserve
    obtain ⟨s'', reaction, hserve', -, huses⟩ := serve_notify visit s q notice
    rw [hserve', Served.runs.injEq] at hserve
    obtain ⟨-, rfl⟩ := hserve
    have hnothing := Uses.notices_eq_nil huses hinner hlost₁
    calc notices (⟨i, s, Request.notify q notice, none, s'⟩ :: (inner ++ later))
        = (q, notice) :: (notices inner ++ notices later) :=
          congrArg ((q, notice) :: ·) (notices_append inner later)
      _ = (q, notice) :: (replies log').map Reply.told := by
          rw [hnothing, hlater, List.nil_append]

end Accounts

/-! ## Calls that do not wait -/

section Prompt

variable {α : Type}

theorem prompt_section {part : Section} {next : part.Answer → Action α}
    (hnext : ∀ a, Prompt (Setting S) (next a)) :
    Prompt (Setting S) (Program.ask (I := interface) (.under (.transaction t part)) next) := by
  refine .of_answers (fun visit s => ?_) hnext
  obtain ⟨s', -, hserve⟩ := Client.serve_section visit s t part
  exact ⟨_, _, _, hserve⟩

theorem prompt_outside {call : Outside} {next : call.Answer → Action α}
    (hnext : ∀ a, Prompt (Setting S) (next a)) :
    Prompt (Setting S) (Program.ask (I := interface) (.outside call) next) :=
  .of_answers (fun _ _ => ⟨_, _, _, rfl⟩) hnext

/-- An enlistment settles its delivery without waiting. -/
theorem prompt_enlistment (e : Enlistment) (notice : Notice) :
    Prompt (Setting S) (e.notify notice) := by
  have hsettle : ∀ call, Prompt (Setting S) (e.settle call) := by
    refine fun call => .of_answers (fun _ _ => ⟨_, _, _, rfl⟩) fun fresh => ?_
    cases fresh with
    | true => exact prompt_outside .done
    | false => exact .done _
  cases notice with
  | prepare => exact .done _
  | commit | rollback => exact hsettle _
  | inDoubt => exact prompt_outside fun _ => .done _

variable (hreact : ∀ turn id notice, Prompt (Setting S) (S.react turn id notice))
include hreact

theorem prompt_notify (p : Participant) (notice : Notice) :
    Prompt (Setting S) (notify p notice) := by
  refine .ask (fun visit s s' c deadline hserve => ?_) (fun visit s s' reaction hserve => ?_) .done
  · cases p <;> cases hserve
  · cases p with
    | delivery e =>
      cases hserve
      exact prompt_enlistment e notice
    | other id =>
      cases hserve
      exact hreact _ _ _

theorem prompt_prepareAll : ∀ all, Prompt (Setting S) (prepareAll all) := by
  intro all
  induction all with
  | nil => exact .done _
  | cons p rest ih =>
    refine (prompt_notify hreact p .prepare).bind fun a => ?_
    cases a with
    | ok => exact ih
    | error e => exact .done _

theorem prompt_notifyAll (notice : Notice) : ∀ all, Prompt (Setting S) (notifyAll notice all) := by
  intro all
  induction all with
  | nil => exact .done _
  | cons p rest ih =>
    refine (prompt_notify hreact p notice).bind fun a => ?_
    cases a with
    | ok => exact ih
    | error e => exact prompt_outside fun _ => ih.bind fun _ => .done _

theorem prompt_doubtAll : ∀ all, Prompt (Setting S) (doubtAll all) := by
  intro all
  induction all with
  | nil => exact .done _
  | cons p rest ih => exact (prompt_notify hreact p .inDoubt).bind fun _ => ih

/-- **A call does not wait if the participants do not.** -/
theorem Call.prompt (c : Call) : Prompt (Setting S) (c.action t) := by
  cases c with
  | enlist p => exact prompt_section .done
  | complete how =>
    cases how with
    | commit =>
      refine prompt_section fun a => ?_
      cases a with
      | error e => exact .done _
      | ok all =>
        refine (prompt_prepareAll hreact all).bind fun agreed => ?_
        cases agreed with
        | error cause =>
          refine prompt_outside fun _ => (prompt_notifyAll hreact .rollback all).bind fun failure =>
            prompt_section fun _ => ?_
          cases failure <;> exact .done _
        | ok =>
          exact (prompt_notifyAll hreact .commit all).bind fun failure =>
            prompt_section fun _ => prompt_outside fun _ => .done _
    | rollback =>
      refine prompt_section fun a => ?_
      cases a with
      | error e => exact .done _
      | ok all =>
        exact (prompt_notifyAll hreact .rollback all).bind fun failure =>
          prompt_section fun _ => prompt_outside fun _ => .done _
    | markInDoubt =>
      refine prompt_section fun a => ?_
      cases a with
      | error e => exact .done _
      | ok all =>
        exact (prompt_doubtAll hreact all).bind fun _ =>
          prompt_section fun _ => prompt_outside fun _ => .done _
  | discard =>
    refine prompt_section fun all => ?_
    by_cases hempty : all.isEmpty
    · obtain rfl := List.isEmpty_iff.mp hempty
      exact .done _
    · dsimp only [Program.done_bind]
      rw [if_neg hempty]
      refine prompt_outside fun _ => ((prompt_notifyAll hreact .rollback all).bind
        fun failure => ?_).bind fun _ => .done _
      cases failure with
      | none => exact .done _
      | some e => exact prompt_outside .done

end Prompt

/-! ## The call that takes the participants -/

variable {C : Company t} {w : World} {calls : List Call}

/-- The thread that takes the participants. -/
theorem thread_eq_of_winner? {e : Event interface (Setting S)} {i : Nat}
    (h : winner? t e = some i) : e.thread = i := by
  unfold winner? at h
  split at h <;> simp_all

theorem mem_eventsOf {trace : Trace S} {i : Nat} {e : Event interface (Setting S)} :
    e ∈ eventsOf i trace ↔ e ∈ trace ∧ e.thread = i := by
  simp [eventsOf]

theorem mem_winners {trace : Trace S} {i : Nat} (h : i ∈ winners t trace) :
    ∃ e ∈ eventsOf i trace, winner? t e = some i := by
  obtain ⟨e, he, hwinner⟩ := List.mem_filterMap.mp h
  exact ⟨e, mem_eventsOf.mpr ⟨he, thread_eq_of_winner? hwinner⟩, hwinner⟩

/-- **An account of a call** starts with its section, which takes the participants, or leaves
nothing to account for but the result. -/
theorem account_of_call {trace : Trace S} {i : Nat} {c : Call} {log : List (Exchange interface)}
    {r : Result Unit} (h : Account (c.action t) (eventsOf i trace) log r) :
    ∃ next visit s later log', c.action t = .ask (.under (.transaction t c.section)) next ∧
      eventsOf i trace = .of i visit s (.under (.transaction t c.section)) :: later ∧
      log = ⟨.under (.transaction t c.section), ((s.transaction t).run c.section).2⟩ :: log' ∧
      Account (next ((s.transaction t).run c.section).2) later log' r ∧
      (winner? t (.of (I := interface) i visit s (.under (.transaction t c.section))) = some i ∨
        later = [] ∧ r = c.refusal (s.transaction t).status) := by
  obtain ⟨first, hfirst, -⟩ := c.first_section (t := t) i ⟨0, 0, false⟩ (.renewed t {} : Setting S)
  rw [hfirst] at h
  obtain ⟨j, visit, s, later, log', hevents, rfl, hlater⟩ := account_of_section h
  obtain rfl : j = i := by
    have hmem : .of j visit s _ ∈ eventsOf i trace := hevents ▸ List.mem_cons_self
    exact (mem_eventsOf.mp hmem).2
  refine ⟨first, visit, s, later, log', hfirst, hevents, rfl, hlater, ?_⟩
  obtain ⟨next, hnext, hwinner | hrest⟩ := c.first_section (t := t) j visit s
  · exact .inl hwinner
  · obtain ⟨s', -, hserve⟩ := Client.serve_section visit s t c.section
    rw [hfirst] at hnext
    cases hnext
    rw [hserve] at hrest
    have hdone : first ((s.transaction t).run c.section).2 = _ := hrest
    rw [hdone] at hlater
    obtain ⟨rfl, -, rfl⟩ := hlater.of_done
    exact .inr ⟨rfl, rfl⟩

/-- What comes of a call that finds the transaction active: its participant is enlisted, and
there it ends, or it takes the participants. -/
def Call.Enters (t : TransactionId) (i : Nat) (trace later : Trace S) (r : Result Unit) :
    Call → Prop
  | .enlist p => p ∈ enlisted t trace ∧ later = [] ∧ r = .ok ()
  | .complete _ | .discard => i ∈ winners t trace

/-- **How the call of thread `i` starts**: with its section. It enters the transaction if it
finds it active; otherwise it ends there, with the refusal. -/
def Call.Starts (c : Call) (t : TransactionId) (i : Nat) (trace : Trace S) (r : Result Unit) :
    Prop :=
  ∃ e later, eventsOf i trace = e :: later ∧
    e.request = Request.under (.transaction t c.section) ∧
    ((e.before.transaction t).status = .active → c.Enters t i trace later r) ∧
    ((e.before.transaction t).status ≠ .active →
      later = [] ∧ r = c.refusal (e.before.transaction t).status)

/-- A completion that finds the transaction active takes the participants. -/
theorem mem_winners_of_active {trace : Trace S} {i : Nat} {visit : Visit} {s : Setting S}
    {c : Call} (hmem : .of i visit s (.under (.transaction t c.section)) ∈ trace)
    (hcompletes : ∀ p, c ≠ .enlist p) (hactive : (s.transaction t).status = .active) :
    i ∈ winners t trace := by
  cases hwinner : winner? t (.of i visit s (.under (.transaction t c.section))) with
  | none =>
    rcases (winner?_eq_none_iff c).mp hwinner with ⟨p, rfl⟩ | hnot
    · exact absurd rfl (hcompletes p)
    · exact absurd hactive hnot
  | some j =>
    obtain rfl : i = j := thread_eq_of_winner? hwinner
    exact List.mem_filterMap.mpr ⟨_, hmem, hwinner⟩

/-- **Every call that has an account starts so.** -/
theorem Call.starts {trace : Trace S} {i : Nat} {c : Call} {log : List (Exchange interface)}
    {r : Result Unit} (h : Account (c.action t) (eventsOf i trace) log r) :
    c.Starts t i trace r := by
  obtain ⟨next, visit, s, later, log', -, hevents, -, -, hfirst⟩ := account_of_call h
  have hmem : .of i visit s (.under (.transaction t c.section)) ∈ trace :=
    (mem_eventsOf.mp (hevents ▸ List.mem_cons_self)).1
  refine ⟨_, later, hevents, rfl, fun (hactive : (s.transaction t).status = .active) => ?_,
    fun (hnot : (s.transaction t).status ≠ .active) => ?_⟩
  · cases c with
    | enlist p =>
      rcases hfirst with hwinner | ⟨rfl, rfl⟩
      · rw [(winner?_eq_none_iff (.enlist p)).mpr (.inl ⟨p, rfl⟩)] at hwinner
        cases hwinner
      · refine ⟨List.mem_filterMap.mpr ⟨_, hmem, ?_⟩, rfl, if_pos hactive⟩
        obtain ⟨s', hevent⟩ := event_of_section (t := t) i visit s (.enlist p)
        simp [Call.section, hevent, enlisted?, run, hactive]
    | complete how | discard => exact mem_winners_of_active hmem (fun p hp => by cases hp) hactive
  · rcases hfirst with hwinner | hrefused
    · rw [(winner?_eq_none_iff c).mpr (.inr hnot)] at hwinner
      cases hwinner
    · exact hrefused

variable (C w calls) in
theorem runCalls_standing (schedule : List (Machine.Move interface (Result Unit))) :
    ∃ gs, Stands t (runCalls C.toSurroundings t w calls schedule).trace
        (runCalls C.toSurroundings t w calls schedule).machine.shared gs ∧
      ∀ e ∈ (runCalls C.toSurroundings t w calls schedule).trace, Orderly t e := by
  have huses : ∀ p ∈ calls.map (Call.action t), Uses t (Request.Spares t) p := by
    intro p hp
    obtain ⟨c, -, rfl⟩ := List.mem_map.mp hp
    exact .ofCall c
  obtain ⟨gs, hstands, horderly, -⟩ := standing (C := C) huses w schedule
  exact ⟨gs, hstands, horderly⟩

/-- Participants are enlisted and taken while the transaction is active. -/
theorem active_of_isSome {i : Nat} {visit : Visit} {s : Setting S} {r : interface.Request}
    (h : (winner? t (.of i visit s r)).isSome ∨ (enlisted? t (.of i visit s r)).isSome) :
    (s.transaction t).status = .active := by
  by_contra hactive
  rcases Request.cases_of t r with helse | ⟨part, rfl⟩ | ⟨p, notice, rfl⟩
  · obtain ⟨henlisted, -, hwinner, -⟩ := quiet_of_elsewhere helse i s
      (Server.serve visit s r).state (Server.serve visit s r).answer?
    simp [Event.of, henlisted, hwinner] at h
  · obtain ⟨s', hevent⟩ := event_of_section (t := t) i visit s part
    rw [hevent] at h
    cases part <;> simp [winner?, enlisted?, run, hactive] at h
  · simp [Event.of, winner?, enlisted?] at h

/-- Where the transaction stands when an event happens. -/
theorem runCalls_point {schedule : List (Machine.Move interface (Result Unit))}
    {before later : Trace C.toSurroundings} {e : Event interface (Setting C.toSurroundings)}
    (h : (runCalls C.toSurroundings t w calls schedule).trace = before ++ e :: later) :
    (∃ gs, Stands t before e.before gs) ∧ ((winner? t e).isSome ∨ (enlisted? t e).isSome →
      (e.before.transaction t).status = .active) := by
  obtain ⟨earlier, i, visit, r, hbefore, rfl⟩ := Machine.event_point schedule h
  obtain ⟨gs, hstands, -⟩ := runCalls_standing C w calls earlier
  rw [runCalls, hbefore] at hstands
  exact ⟨⟨gs, hstands⟩, active_of_isSome⟩

/-- The transaction is active until a call takes the participants. -/
theorem active_iff_of_trace {schedule : List (Machine.Move interface (Result Unit))}
    {before later : Trace C.toSurroundings} {e : Event interface (Setting C.toSurroundings)}
    (h : (runCalls C.toSurroundings t w calls schedule).trace = before ++ e :: later) :
    (e.before.transaction t).status = .active ↔ winners t before = [] := by
  obtain ⟨⟨gs, hstands⟩, -⟩ := runCalls_point h
  exact hstands.active_iff

/-- A call that has returned has an account. -/
theorem exists_account {schedule : List (Machine.Move interface (Result Unit))} {i : Nat}
    {c : Call} {r : Result Unit} (hc : calls[i]? = some c)
    (hr : (runCalls S t w calls schedule).machine.result? i = some r) :
    ∃ log, Account (c.action t) (eventsOf i (runCalls S t w calls schedule).trace) log r :=
  Machine.account schedule (by simp [hc]) hr

theorem enlisted?_eq_none_of_winner? {e : Event interface (Setting S)}
    (h : (winner? t e).isSome) : enlisted? t e = none := by
  unfold winner? at h
  split at h
  · rfl
  · rfl
  · cases h

/-- **What is taken is what was enlisted**: nobody is enlisted after the
participants are taken. -/
theorem transaction_eq_of_winner {schedule : List (Machine.Move interface (Result Unit))}
    {e : Event interface (Setting C.toSurroundings)}
    (he : e ∈ (runCalls C.toSurroundings t w calls schedule).trace)
    (hwinner : (winner? t e).isSome) :
    e.before.transaction t =
      ⟨.active, enlisted t (runCalls C.toSurroundings t w calls schedule).trace⟩ := by
  obtain ⟨before, later, htrace⟩ := List.append_of_mem he
  obtain ⟨⟨gs, hstands⟩, hactive⟩ := runCalls_point htrace
  obtain ⟨-, hstate, -, -⟩ := hstands.of_active (hactive (.inl hwinner))
  have hlater : enlisted t later = [] := by
    rw [enlisted, List.filterMap_eq_nil_iff]
    intro e' he'
    by_contra hsome
    obtain ⟨between, rest, rfl⟩ := List.append_of_mem he'
    have htrace' : (runCalls C.toSurroundings t w calls schedule).trace =
        (before ++ e :: between) ++ e' :: rest := by rw [htrace]; simp
    obtain ⟨⟨gs', hstands'⟩, hactive'⟩ := runCalls_point htrace'
    have hnobody := hstands'.active_iff.mp
      (hactive' (.inr (Option.isSome_iff_ne_none.mpr hsome)))
    obtain ⟨i, hi⟩ := Option.isSome_iff_exists.mp hwinner
    simp [winners, hi] at hnobody
  have hall : enlisted t (before ++ e :: later) = enlisted t before := by
    have hnone := enlisted?_eq_none_of_winner? hwinner
    rw [enlisted, List.filterMap_append, List.filterMap_cons_none hnone, ← enlisted, ← enlisted,
      hlater, List.append_nil]
  rw [htrace, hall]
  exact hstate

/-- **An account of the call that takes the participants** starts with
its section, which gives it the participants, and takes none after it. -/
theorem account_of_winner {schedule : List (Machine.Move interface (Result Unit))} {i : Nat}
    {c : Call} {log : List (Exchange interface)} {r : Result Unit}
    (hwon : i ∈ winners t (runCalls C.toSurroundings t w calls schedule).trace)
    (h : Account (c.action t) (eventsOf i (runCalls C.toSurroundings t w calls schedule).trace)
      log r) :
    ∃ next visit s later log', c.action t = .ask (.under (.transaction t c.section)) next ∧
      eventsOf i (runCalls C.toSurroundings t w calls schedule).trace =
        .of i visit s (.under (.transaction t c.section)) :: later ∧
      log = ⟨.under (.transaction t c.section), ((s.transaction t).run c.section).2⟩ :: log' ∧
      Account (next ((s.transaction t).run c.section).2) later log' r ∧
      winner? t (.of (I := interface) i visit s (.under (.transaction t c.section))) = some i ∧
      ∀ e ∈ later, winner? t e = none := by
  obtain ⟨next, visit, s, later, log', hnext, hevents, rfl, hlater, hfirst⟩ := account_of_call h
  have hwinner : winner? t (.of (I := interface) i visit s (.under (.transaction t c.section))) =
      some i := by
    rcases hfirst with hwinner | ⟨rfl, -⟩
    · exact hwinner
    · -- a call that goes no further has this one event, so it is the one that takes them
      obtain ⟨e, he, hwinner⟩ := mem_winners hwon
      rw [hevents, List.mem_singleton] at he
      exact he ▸ hwinner
  have hnone : winners t later = [] := by
    obtain ⟨gs, hstands, -⟩ := runCalls_standing C w calls schedule
    have hsub := List.Sublist.length_le (List.Sublist.filterMap (winner? t)
      (List.filter_sublist (p := fun e => decide (e.thread = i))
        (l := (runCalls C.toSurroundings t w calls schedule).trace)))
    have honce := Nat.le_trans hsub hstands.length_winners_le
    rw [← eventsOf, hevents, List.filterMap_cons_some hwinner, List.length_cons] at honce
    exact List.eq_nil_of_length_eq_zero (by rw [winners]; omega)
  exact ⟨next, visit, s, later, log', hnext, hevents, rfl, hlater, hwinner,
    List.filterMap_eq_nil_iff.mp hnone⟩

/-- What only one thread tells is told by the events of this thread. -/
theorem notices_eventsOf {trace : Trace S} {i : Nat}
    (h : ∀ e ∈ trace, (notice? e).isSome → e.thread = i) :
    notices (eventsOf i trace) = notices trace := by
  rw [notices, notices, eventsOf, List.filterMap_filter]
  refine List.filterMap_congr fun e he => ?_
  by_cases hthread : e.thread = i
  · simp [hthread]
  · have hnone : notice? e = none := by
      by_contra hsome
      exact hthread (h e he (Option.isSome_iff_ne_none.mpr hsome))
    simp [hnone]

/-- What a section makes of the transaction. -/
theorem after_of_section {m : Machine interface (Setting S) (Result Unit)}
    {schedule : List (Machine.Move interface (Result Unit))} {e : Event interface (Setting S)}
    (he : e ∈ (m.run schedule).trace) {part : Section}
    (hpart : e.request = Request.under (.transaction t part)) :
    e.after.transaction t = ((e.before.transaction t).run part).1 := by
  obtain ⟨visit, hevent⟩ := Machine.exists_of_mem_trace he
  obtain ⟨s', hstate, hserve⟩ := Client.serve_section visit e.before t part
  rw [hpart, Event.of, hserve] at hevent
  rw [hevent]
  exact hstate

/-- The final status that a section gives the transaction is its status at
the end of the run. -/
theorem status_of_section {schedule : List (Machine.Move interface (Result Unit))}
    {e : Event interface (Setting C.toSurroundings)}
    (he : e ∈ (runCalls C.toSurroundings t w calls schedule).trace) {part : Section}
    (hpart : e.request = Request.under (.transaction t part)) {status : TransactionStatus}
    (hstatus : ((e.before.transaction t).run part).1.status = status) (hfinal : status.isFinal) :
    ((runCalls C.toSurroundings t w calls schedule).machine.shared.transaction t).status =
      status := by
  obtain ⟨gs, -, horderly⟩ := runCalls_standing C w calls schedule
  have hafter : (e.after.transaction t).status = status := by
    rw [after_of_section he hpart, hstatus]
  have hstays := final_stays (m := Machine.start (.renewed t w) (calls.map (Call.action t)))
    schedule horderly e he (hafter ▸ hfinal)
  exact hstays.trans hafter

/-! ## All or nothing -/

/-- **What it means that the transaction `t` completes all or nothing** in
a run of calls on it. -/
structure AllOrNothing (t : TransactionId) (calls : List Call)
    (h : History interface (Setting S) (Result Unit)) : Prop where
  /-- The transaction is active until a call takes the participants. -/
  active : ∀ before e later, h.trace = before ++ e :: later →
    ((e.before.transaction t).status = .active ↔ winners t before = [])
  /-- A call that has returned has started with its section, and has taken the
  participants, or enlisted its own, if it found the transaction active. -/
  starts : ∀ i c r, calls[i]? = some c → h.machine.result? i = some r → c.Starts t i h.trace r
  /-- Every call that has returned has an account, by the events of its
  thread. -/
  account : ∀ i c r, calls[i]? = some c → h.machine.result? i = some r →
    ∃ log, Account (c.action t) (eventsOf i h.trace) log r
  /-- By every account of the call that has taken the participants, all whose
  enlistment was accepted are completed as this call is to complete them,
  and the transaction has the status that goes with it. -/
  completes : ∀ i ∈ winners t h.trace, ∀ c log r, calls[i]? = some c →
    Account (c.action t) (eventsOf i h.trace) log r →
    c.Completes (enlisted t h.trace) (replies log) (h.machine.shared.transaction t).status r
  /-- Nobody is told anything apart from this. -/
  told : ∀ i ∈ winners t h.trace, ∀ c log r, calls[i]? = some c →
    Account (c.action t) (eventsOf i h.trace) log r →
    notices h.trace = (replies log).map Reply.told
  /-- And nobody else tells them anything. -/
  teller : ∀ e ∈ h.trace, (notice? e).isSome → e.thread ∈ winners t h.trace
  /-- If no participant waits, every call can be brought to its end. -/
  returns : (∀ turn id notice, Prompt (Setting S) (S.react turn id notice)) →
    ∀ i < calls.length, ∃ more, ((h.machine.run more).machine.result? i).isSome

/-- **A transaction completes all or nothing**, whatever the participants
answer and whatever other calls are made meanwhile. -/
theorem all_or_nothing (C : Company t) (w : World) (calls : List Call)
    (schedule : List (Machine.Move interface (Result Unit))) :
    AllOrNothing t calls (runCalls C.toSurroundings t w calls schedule) where
  active := fun before e later htrace => active_iff_of_trace htrace
  starts := fun i c r hc hr => by
    obtain ⟨log, haccount⟩ := exists_account hc hr
    exact Call.starts haccount
  account := fun i c r hc hr => exists_account hc hr
  completes := by
    intro i hwon c log r hc haccount
    obtain ⟨next, visit, s, later, log', hnext, hevents, rfl, hlater, hwinner, -⟩ :=
      account_of_winner hwon haccount
    have hmem : ∀ e ∈ .of i visit s (.under (.transaction t c.section)) :: later,
        e ∈ (runCalls C.toSurroundings t w calls schedule).trace :=
      fun e he => (mem_eventsOf.mp (hevents ▸ he)).1
    have hstate : s.transaction t = ⟨.active, _⟩ :=
      transaction_eq_of_winner (hmem _ List.mem_cons_self)
        (Option.isSome_iff_exists.mpr ⟨i, hwinner⟩)
    rw [hstate] at hlater ⊢
    cases c with
    | enlist p =>
      have hnone : winner? t (.of (I := interface) i visit s
          (.under (.transaction t (Call.enlist p).section))) = none :=
        (winner?_eq_none_iff (.enlist p)).mpr (.inl ⟨p, rfl⟩)
      rw [hnone] at hwinner
      cases hwinner
    | complete how =>
      obtain ⟨status, hfinal, hcompletes, hfinish⟩ := how.completes_of_path hnext hlater.path
      obtain ⟨e, he, hrequest⟩ := hlater.exists_event _ hfinish
      rw [status_of_section (hmem e (List.mem_cons_of_mem _ he)) hrequest rfl hfinal]
      exact hcompletes
    | discard =>
      have habandoned : ((s.transaction t).run .abandon).1.status = .rolledBack := by
        rw [hstate]
        rfl
      rw [status_of_section (hmem _ List.mem_cons_self) rfl habandoned rfl]
      have htaken : Account (next (enlisted t (runCalls C.toSurroundings t w calls schedule).trace))
          later log' r := hlater
      have hcompletes := discard_completes_of_path hnext htaken.path
      exact hcompletes
  told := by
    intro i hwon c log r hc haccount
    obtain ⟨next, visit, s, later, log', hnext, hevents, rfl, hlater, hwinner, hnone⟩ :=
      account_of_winner hwon haccount
    obtain ⟨gs, hstands, -⟩ := runCalls_standing C w calls schedule
    have hteller : ∀ e ∈ (runCalls C.toSurroundings t w calls schedule).trace,
        (notice? e).isSome → e.thread = i := fun e he hsome =>
      hstands.eq_of_mem_winners (hstands.teller_won e he hsome) hwon
    rw [← notices_eventsOf hteller, hevents]
    -- the section itself tells nobody
    have htold := notices_eq_told hlater hnone
    exact htold
  teller := by
    obtain ⟨gs, hstands, -⟩ := runCalls_standing C w calls schedule
    exact hstands.teller_won
  returns := by
    intro hprompt i hi
    have hc : calls[i]? = some calls[i] := List.getElem?_eq_getElem hi
    refine Machine.returns (p := calls[i].action t) ?_ (Call.prompt hprompt _) schedule
    rw [Machine.programs_start, List.getElem?_map, hc]
    rfl

/-- The second of three participants fails to prepare, and the first to
roll back; the third hears of the rollback only. -/
example :
    let react : ParticipantId → Notice → Result Unit
      | 1, .prepare => .error .queueClosed
      | 0, .rollback => .error (.transaction (.aborted "late"))
      | _, _ => .ok ()
    let S : Surroundings := { (default : Surroundings) with
      react := fun _ id notice => .done (react id notice) }
    let h := runCalls S 0 {} [.enlist (.other 0), .enlist (.other 1), .enlist (.other 2),
        .complete .commit]
      (.advance .longest 0 :: .advance .longest 1 :: .advance .longest 2 ::
        List.replicate 9 (.advance .longest 3))
    (notices h.trace, (h.machine.shared.transaction 0).status, h.machine.result? 3) =
      ([(.other 0, .prepare), (.other 1, .prepare), (.other 0, .rollback), (.other 1, .rollback),
        (.other 2, .rollback)], .rolledBack, some (.error (.transaction (.aborted "late")))) := by
  rfl

end MessageIntake.Transaction
