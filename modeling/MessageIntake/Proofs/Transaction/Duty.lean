import MessageIntake.Proofs.Transaction.Calls

/-!
# The duty of whoever completes a transaction

The call that takes the participants out of a transaction owes every one
of them a notice. Its note is a `Duty`: the participants it took, what it
has told so far, and how far it is. `completing` is the discipline of a
transaction: only who holds a duty tells, what is told so far is always
a beginning of what is owed (`Duty.Sound`), and the outcome is set when
all are told. Every program that uses the transaction follows it
(`Uses.follows`).

A call inside a participant runs in a thread that holds a duty already.
It cannot take another one, and leaves the duty as it is.
-/

namespace MessageIntake

open Client

/-- The outcome that a notice tells. -/
def Notice.outcome? : Notice → Option TransactionStatus
  | .prepare => none
  | .commit => some .committed
  | .rollback => some .rolledBack
  | .inDoubt => some .inDoubt

namespace Transaction

/-- What is told when `asked` are asked to prepare and then `heard` are
told `notice`. -/
def messages (asked heard : List Participant) (notice : Notice) : List (Participant × Notice) :=
  asked.map (·, .prepare) ++ heard.map (·, notice)

/-- **What a completion of `all` may have told so far**: some, in order,
were asked to prepare; then some, in order, were told one outcome, which
is to commit only if all were asked. -/
def Underway (all : List Participant) (told : List (Participant × Notice)) : Prop :=
  ∃ asked heard notice, asked <+: all ∧ heard <+: all ∧ notice.outcome?.isSome ∧
    (notice = .commit → asked = all) ∧ told = messages asked heard notice

/-- **What a completion of `all` has told at its end**: every one of them
was told the outcome, once and in order. -/
def Complete (all : List Participant) (outcome : TransactionStatus)
    (told : List (Participant × Notice)) : Prop :=
  ∃ asked notice, asked <+: all ∧ notice.outcome? = some outcome ∧
    (notice = .commit → asked = all) ∧ told = messages asked all notice

theorem messages_concat (asked heard : List Participant) (p : Participant) (notice : Notice) :
    messages asked (heard ++ [p]) notice = messages asked heard notice ++ [(p, notice)] := by
  simp [messages]

theorem messages_ask (asked : List Participant) (p : Participant) (notice : Notice) :
    messages (asked ++ [p]) [] notice = messages asked [] notice ++ [(p, .prepare)] := by
  simp [messages]

theorem Complete.underway {all : List Participant} {outcome : TransactionStatus}
    {told : List (Participant × Notice)} (h : Complete all outcome told) : Underway all told := by
  obtain ⟨asked, notice, hasked, hnotice, hcommit, rfl⟩ := h
  exact ⟨asked, all, notice, hasked, List.prefix_rfl, by simp [hnotice], hcommit, rfl⟩

/-- How far a completion is. -/
inductive Stage where
  | completing
  /-- The transaction was discarded, and counts as rolled back. -/
  | dropped
  | ended (outcome : TransactionStatus)
  deriving DecidableEq, Repr

/-- The status that the transaction has meanwhile. -/
def Stage.status : Stage → TransactionStatus
  | completing => .completing
  | dropped => .rolledBack
  | ended outcome => outcome

/-- What the call that took the participants owes them. -/
structure Duty where
  all : List Participant
  told : List (Participant × Notice)
  stage : Stage
  deriving DecidableEq, Repr

namespace Duty

/-- The duty after one more notice. -/
def tell (d : Duty) (p : Participant) (notice : Notice) : Duty :=
  { d with told := d.told ++ [(p, notice)] }

/-- The duty when the outcome is set. -/
def finish (d : Duty) (outcome : TransactionStatus) : Duty := { d with stage := .ended outcome }

/-- **What is told fits the stage.** -/
def Sound (d : Duty) : Prop :=
  match d.stage with
  | .completing => Underway d.all d.told
  | .dropped => ∃ heard, heard <+: d.all ∧ d.told = messages [] heard .rollback
  | .ended outcome => Complete d.all outcome d.told

/-- Whether nothing is owed any more. -/
def Done (d : Duty) : Prop := Complete d.all d.stage.status d.told

/-- The duty that comes with the participants. -/
theorem sound_begin (all : List Participant) : Sound ⟨all, [], .completing⟩ :=
  ⟨[], [], .rollback, List.nil_prefix, List.nil_prefix, rfl, nofun, rfl⟩

theorem sound_abandon (all : List Participant) : Sound ⟨all, [], .dropped⟩ :=
  ⟨[], List.nil_prefix, rfl⟩

/-- What is told is always a beginning. -/
theorem Sound.underway {d : Duty} (h : d.Sound) : Underway d.all d.told := by
  obtain ⟨all, told, stage⟩ := d
  cases stage with
  | completing => exact h
  | dropped =>
    obtain ⟨heard, hheard, rfl⟩ := h
    exact ⟨[], heard, .rollback, List.nil_prefix, hheard, rfl, nofun, rfl⟩
  | ended outcome => exact Complete.underway h

end Duty

/-! ## The discipline -/

/-- What a section leaves its thread with. -/
def SectionLeads (g : Option Duty) : (part : Section) → part.Answer → Option Duty → Prop
  | .begin, .ok all, g' => g = none ∧ g' = some ⟨all, [], .completing⟩
  | .finish outcome, _, g' => g' = g.map (·.finish outcome)
  | .abandon, all, g' =>
    (all = [] ∧ g' = g) ∨ (g = none ∧ g' = some ⟨all, [], .dropped⟩)
  | .begin, .error _, g' | .ensureActive, _, g' | .enlist _, _, g' | .look, _, g' => g' = g

/-- **The discipline of the transaction `t`.** Only who holds a duty
tells participants and sets the outcome, and must have told what fits;
only who holds none can take one. -/
def completing (t : TransactionId) : Discipline Client.interface (Option Duty) where
  Permits
    | g, .under (.transaction id (.finish outcome)) =>
      id = t → ∃ d, g = some d ∧ d.stage = .completing ∧ (d.finish outcome).Sound
    | g, .notify p notice =>
      ∃ d, g = some d ∧ (∀ outcome, d.stage ≠ .ended outcome) ∧ (d.tell p notice).Sound
    | _, _ => True
  Leads
    | g, .under (.transaction id part), a, g' =>
      if id = t then SectionLeads g part a g' else g' = g
    | g, .notify p notice, _, g' => g' = g.map (·.tell p notice)
    | g, _, _, g' => g' = g

variable {t : TransactionId} {g : Option Duty} {α : Type}

/-- What a call leaves its thread with: the note it came with, or a duty
that it took and has done. -/
def Settles (g g' : Option Duty) : Prop :=
  g' = g ∨ g = none ∧ ∃ d, g' = some d ∧ d.Done

theorem Settles.trans {g g' g'' : Option Duty} (h : Settles g g') (h' : Settles g' g'') :
    Settles g g'' := by
  rcases h' with rfl | ⟨hnone, hdone⟩
  · exact h
  · rcases h with rfl | ⟨-, d, hd, -⟩
    · exact .inr ⟨hnone, hdone⟩
    · simp [hnone] at hd

/-- Who holds a duty comes out of a call with the same. -/
theorem Settles.eq_of_some {d : Duty} {g' : Option Duty} (h : Settles (some d) g') :
    g' = some d := by
  rcases h with rfl | ⟨hnone, -⟩
  · rfl
  · cases hnone

/-- The log is nobody's duty. -/
theorem log_bind_follows {level : Level} {text : String} {next : Unit → Action α}
    {Post : α → Option Duty → Prop} (h : (next ()).Follows (completing t) Post g) :
    ((log level text).bind next).Follows (completing t) Post g :=
  ⟨trivial, fun _ _ hlead => hlead ▸ h⟩

theorem notify_follows (d : Duty) (p : Participant) (notice : Notice)
    (hopen : ∀ outcome, d.stage ≠ .ended outcome) (hsound : (d.tell p notice).Sound) :
    (notify p notice).Follows (completing t) (fun _ g' => g' = some (d.tell p notice)) (some d) :=
  ⟨⟨d, rfl, hopen, hsound⟩, fun _ _ hlead => hlead⟩

theorem finish_follows (d : Duty) (outcome : TransactionStatus) (hstage : d.stage = .completing)
    (hsound : (d.finish outcome).Sound) :
    (Client.transaction t (.finish outcome)).Follows (completing t)
      (fun _ g' => g' = some (d.finish outcome)) (some d) := by
  refine ⟨fun _ => ⟨d, rfl, hstage, hsound⟩, fun _ g' hlead => ?_⟩
  simpa [completing, SectionLeads] using hlead

/-- Taking the participants: it fails, or it comes with a duty. -/
theorem begin_follows :
    (Client.transaction t .begin).Follows (completing t)
      (fun r g' => match r with
        | .ok all => g = none ∧ g' = some ⟨all, [], .completing⟩
        | .error _ => g' = g) g := by
  refine ⟨trivial, fun a g' hlead => ?_⟩
  simp only [completing, if_true] at hlead
  cases a <;> exact hlead

/-- Asking the participants to prepare, after those in `done`. -/
theorem prepareAll_follows {all : List Participant} : ∀ rest done, done ++ rest = all →
    (prepareAll rest).Follows (completing t)
      (fun r g' => ∃ asked, asked <+: all ∧ (r = .ok () → asked = all) ∧
        g' = some ⟨all, messages asked [] .rollback, .completing⟩)
      (some ⟨all, messages done [] .rollback, .completing⟩) := by
  intro rest
  induction rest with
  | nil =>
    intro done hall
    exact ⟨done, ⟨[], hall⟩, fun _ => by simpa using hall, rfl⟩
  | cons p rest ih =>
    intro done hall
    have hnext : (done ++ [p]) ++ rest = all := by simpa using hall
    have hsound : Duty.Sound ⟨all, messages done [] .rollback ++ [(p, .prepare)], .completing⟩ :=
      ⟨done ++ [p], [], .rollback, ⟨rest, hnext⟩, List.nil_prefix, rfl, nofun,
        (messages_ask done p .rollback).symm⟩
    refine Action.follows_andThen (notify_follows _ p .prepare (by simp) hsound) (fun a g' hg => ?_)
      (fun e g' hg => ?_)
    · subst hg
      have hfollow := ih (done ++ [p]) hnext
      rwa [messages_ask] at hfollow
    · exact ⟨done ++ [p], ⟨rest, hnext⟩, nofun, by rw [hg, messages_ask]; rfl⟩

/-- Telling every participant the same, after those in `done`. -/
theorem notifyAll_follows {all asked : List Participant} {notice : Notice} {stage : Stage}
    (hopen : ∀ outcome, stage ≠ .ended outcome)
    (hsound : ∀ heard, heard <+: all → Duty.Sound ⟨all, messages asked heard notice, stage⟩) :
    ∀ rest done, done ++ rest = all →
    (notifyAll notice rest).Follows (completing t)
      (fun _ g' => g' = some ⟨all, messages asked all notice, stage⟩)
      (some ⟨all, messages asked done notice, stage⟩) := by
  intro rest
  induction rest with
  | nil =>
    intro done hall
    rw [List.append_nil] at hall
    simp [notifyAll, hall]
  | cons p rest ih =>
    intro done hall
    have hnext : (done ++ [p]) ++ rest = all := by simpa using hall
    have htold := hsound (done ++ [p]) ⟨rest, hnext⟩
    have hrest := ih (done ++ [p]) hnext
    rw [messages_concat] at htold hrest
    refine (notify_follows ⟨all, messages asked done notice, stage⟩ p notice hopen htold).bind
      fun a g' hg => ?_
    subst hg
    cases a with
    | ok => exact hrest
    | error e =>
      exact log_bind_follows (hrest.bind fun _ g' hg => hg)

/-- Telling every participant that the outcome is unknown, after those in
`done`. -/
theorem doubtAll_follows {all : List Participant} : ∀ rest done, done ++ rest = all →
    (doubtAll rest).Follows (completing t)
      (fun _ g' => g' = some ⟨all, messages [] all .inDoubt, .completing⟩)
      (some ⟨all, messages [] done .inDoubt, .completing⟩) := by
  intro rest
  induction rest with
  | nil =>
    intro done hall
    rw [List.append_nil] at hall
    simp [doubtAll, hall]
  | cons p rest ih =>
    intro done hall
    have hnext : (done ++ [p]) ++ rest = all := by simpa using hall
    have hsound : Duty.Sound ⟨all, messages [] done .inDoubt ++ [(p, .inDoubt)], .completing⟩ :=
      ⟨[], done ++ [p], .inDoubt, List.nil_prefix, ⟨rest, hnext⟩, rfl, nofun,
        (messages_concat [] done p .inDoubt).symm⟩
    refine (notify_follows ⟨all, messages [] done .inDoubt, .completing⟩ p .inDoubt (by simp)
      hsound).bind fun _ g' hg => ?_
    subst hg
    have hrest := ih (done ++ [p]) hnext
    rwa [messages_concat] at hrest

/-! ## The calls -/

/-- Telling everybody one outcome and then setting it. -/
theorem tell_and_finish_follows {all asked : List Participant} {notice : Notice}
    {outcome : TransactionStatus} {next : Option Error → Action α}
    {Post : α → Option Duty → Prop} (hasked : asked <+: all)
    (houtcome : notice.outcome? = some outcome) (hcommit : notice = .commit → asked = all)
    (hnext : ∀ failure g', (∃ d, g' = some d ∧ d.Done) →
      (next failure).Follows (completing t) Post g') :
    ((notifyAll notice all).bind fun failure =>
      (Client.transaction t (.finish outcome)).bind fun _ => next failure).Follows
      (completing t) Post (some ⟨all, messages asked [] notice, .completing⟩) := by
  have hsound : ∀ heard, heard <+: all →
      Duty.Sound ⟨all, messages asked heard notice, .completing⟩ :=
    fun heard hheard => ⟨asked, heard, notice, hasked, hheard, by simp [houtcome], hcommit, rfl⟩
  have hdone : Complete all outcome (messages asked all notice) :=
    ⟨asked, notice, hasked, houtcome, hcommit, rfl⟩
  refine (notifyAll_follows (by simp) hsound all [] rfl).bind fun failure g' hg => ?_
  subst hg
  refine (finish_follows ⟨all, messages asked all notice, .completing⟩ outcome rfl hdone).bind
    fun _ g' hg => ?_
  exact hnext failure g' ⟨_, hg, hdone⟩

theorem commit_follows : (commit t).Follows (completing t) (fun _ g' => Settles g g') g := by
  refine Action.follows_andThen begin_follows (fun all g' hg => ?_) fun e g' hg => .inl hg
  obtain ⟨rfl, rfl⟩ := hg
  refine (prepareAll_follows all [] rfl).bind fun r g' hg => ?_
  obtain ⟨asked, hasked, hall, rfl⟩ := hg
  cases r with
  | error cause =>
    refine log_bind_follows (tell_and_finish_follows hasked rfl nofun fun failure g' hdone => ?_)
    cases failure <;> exact .inr ⟨rfl, hdone⟩
  | ok =>
    have hcommit := hall rfl
    subst hcommit
    exact tell_and_finish_follows hasked rfl (fun _ => rfl) fun failure g' hdone =>
      log_bind_follows (.inr ⟨rfl, hdone⟩)

theorem rollback_follows : (rollback t).Follows (completing t) (fun _ g' => Settles g g') g := by
  refine Action.follows_andThen begin_follows (fun all g' hg => ?_) fun e g' hg => .inl hg
  obtain ⟨rfl, rfl⟩ := hg
  exact tell_and_finish_follows List.nil_prefix rfl nofun fun failure g' hdone =>
    log_bind_follows (.inr ⟨rfl, hdone⟩)

theorem markInDoubt_follows :
    (markInDoubt t).Follows (completing t) (fun _ g' => Settles g g') g := by
  refine Action.follows_andThen begin_follows (fun all g' hg => ?_) fun e g' hg => .inl hg
  obtain ⟨rfl, rfl⟩ := hg
  have hdone : Complete all .inDoubt (messages [] all .inDoubt) :=
    ⟨[], .inDoubt, List.nil_prefix, rfl, nofun, rfl⟩
  refine (doubtAll_follows all [] rfl).bind fun _ g' hg => ?_
  subst hg
  refine (finish_follows ⟨all, messages [] all .inDoubt, .completing⟩ .inDoubt rfl hdone).bind
    fun _ g' hg => ?_
  exact log_bind_follows (.inr ⟨rfl, _, hg, hdone⟩)

theorem discard_follows : (discard t).Follows (completing t) (fun _ g' => Settles g g') g := by
  refine ⟨trivial, fun all g' hlead => ?_⟩
  simp only [completing, if_true] at hlead
  have hdone : Complete all .rolledBack (messages [] all .rollback) :=
    ⟨[], .rollback, List.nil_prefix, rfl, nofun, rfl⟩
  rcases hlead with ⟨rfl, rfl⟩ | ⟨rfl, rfl⟩
  · exact .inl rfl
  · by_cases hempty : all.isEmpty
    · obtain rfl := List.isEmpty_iff.mp hempty
      exact .inr ⟨rfl, _, rfl, hdone⟩
    · have hsound : ∀ heard, heard <+: all →
          Duty.Sound ⟨all, messages [] heard .rollback, .dropped⟩ :=
        fun heard hheard => ⟨heard, hheard, rfl⟩
      have htell := notifyAll_follows (t := t) (by simp) hsound all [] rfl
      dsimp only [Program.done_bind]
      rw [if_neg hempty]
      refine log_bind_follows (htell.bind fun failure g' hg => ?_)
      have hsettles : Settles none g' := .inr ⟨rfl, _, hg, hdone⟩
      cases failure with
      | none => exact hsettles
      | some e => exact ⟨trivial, fun _ _ hlead => hlead ▸ hsettles⟩

theorem Completion.follows (how : Completion) :
    (how.action t).Follows (completing t) (fun _ g' => Settles g g') g := by
  cases how with
  | commit => exact commit_follows
  | rollback => exact rollback_follows
  | markInDoubt => exact markInDoubt_follows

end Transaction

open Transaction

/-- A request that has nothing to do with a completion changes no
note. -/
theorem Client.Request.Spares.leads {t : TransactionId} {r : Request} (h : r.Spares t)
    (g : Option Duty) : (completing t).Permits g r ∧
      ∀ (a : r.Answer) g', (completing t).Leads g r a g' → g' = g := by
  match r with
  | .under (.transaction id part) =>
    by_cases hid : id = t
    · have huse := h hid
      cases part with
      | ensureActive | enlist | look => simp [completing, hid, SectionLeads]
      | begin | finish | abandon => simp [Section.isUse] at huse
    · refine ⟨by cases part <;> simp [completing, hid], fun a g' hlead => ?_⟩
      simpa [completing, hid] using hlead
  | .under (.queue _ _) | .under (.lifecycle _ _) | .under .newFlag | .under (.settle _)
  | .outside _ => exact ⟨trivial, fun _ _ hlead => hlead⟩
  | .notify _ _ => exact h.elim

/-- **Every program that uses a transaction follows its discipline.** -/
theorem Uses.follows {t : TransactionId} {α : Type} {p : Action α}
    (h : Uses t (Request.Spares t) p) (g : Option Duty) :
    p.Follows (completing t) (fun _ g' => Settles g g') g := by
  induction h generalizing g with
  | done a => exact .inl rfl
  | ask hr _ ih =>
    obtain ⟨hpermit, hlead⟩ := hr.leads g
    refine ⟨hpermit, fun a g' h => ?_⟩
    obtain rfl := hlead a g' h
    exact ih a g'
  | complete how _ ih =>
    exact how.follows.bind fun a g' hg => (ih a g').mono fun _ _ hg' => hg.trans hg'
  | discard _ ih =>
    exact discard_follows.bind fun a g' hg => (ih a g').mono fun _ _ hg' => hg.trans hg'

end MessageIntake
