import MessageIntake.Proofs.Transaction.Duty

/-!
# Where a transaction stands

Either nobody has taken the participants, and the transaction is active
with all that were ever enlisted; or one thread has, and its duty tells
everything else: the status, who was enlisted, and what was told
(`Stands`). `standing` is that this holds at every point of every run,
for any threads and participants that use the transaction. What is read
off a run is read off its events.
-/

namespace MessageIntake.Transaction

open Client

variable {S : Surroundings} {t : TransactionId}

/-! ## What is read off a run -/

/-- The participant that an event enlists. -/
def enlisted? (t : TransactionId) : Event interface (Setting S) → Option Participant
  | ⟨_, _, Request.under (.transaction id (.enlist p)), some (.ok _), _⟩ =>
    if id = t then some p else none
  | _ => none

/-- The notice that an event starts to give. -/
def notice? : Event interface (Setting S) → Option (Participant × Notice)
  | ⟨_, _, Request.notify p notice, _, _⟩ => some (p, notice)
  | _ => none

/-- The thread that takes the participants: its completion has begun, or
it has discarded the transaction while active. -/
def winner? (t : TransactionId) : Event interface (Setting S) → Option Nat
  | ⟨i, _, Request.under (.transaction id .begin), some (.ok _), _⟩ =>
    if id = t then some i else none
  | ⟨i, before, Request.under (.transaction id .abandon), _, _⟩ =>
    if id = t ∧ (before.transaction t).status = .active then some i else none
  | _ => none

/-- The participants whose enlistment was accepted, in this order. -/
def enlisted (t : TransactionId) (trace : Trace S) : List Participant :=
  trace.filterMap (enlisted? t)

/-- What the participants were told, in this order. -/
def notices (trace : Trace S) : List (Participant × Notice) := trace.filterMap notice?

/-- The threads that took the participants. -/
def winners (t : TransactionId) (trace : Trace S) : List Nat := trace.filterMap (winner? t)

theorem winners_subset {trace : Trace S} {i : Nat} (h : i ∈ winners t trace)
    (e : Event interface (Setting S)) : i ∈ winners t (trace ++ [e]) := by
  rw [winners, List.filterMap_append]
  exact List.mem_append_left _ h

/-- **How the status may move.** -/
inductive Moves : Section → TransactionStatus → TransactionStatus → Prop
  | begins : Moves .begin .active .completing
  | ends {outcome : TransactionStatus} :
    outcome.isFinal → Moves (.finish outcome) .completing outcome
  | drops : Moves .abandon .active .rolledBack

/-- Whether an event leaves the status as it is or moves it as it may. -/
def Orderly (t : TransactionId) (e : Event interface (Setting S)) : Prop :=
  (e.after.transaction t).status = (e.before.transaction t).status ∨
    ∃ part, e.request = Request.under (.transaction t part) ∧
      Moves part (e.before.transaction t).status (e.after.transaction t).status

/-! ## The invariant -/

theorem outcome?_isFinal {notice : Notice} {outcome : TransactionStatus}
    (h : notice.outcome? = some outcome) : outcome.isFinal := by
  cases notice <;> simp only [Notice.outcome?, Option.some.injEq, reduceCtorEq] at h <;>
    subst h <;> rfl

theorem Complete.isFinal {all : List Participant} {outcome : TransactionStatus}
    {told : List (Participant × Notice)} (h : Complete all outcome told) : outcome.isFinal := by
  obtain ⟨_, _, _, hnotice, _⟩ := h
  exact outcome?_isFinal hnotice

/-- A transaction whose participants are taken is not active. -/
theorem Duty.Sound.not_active {d : Duty} (h : d.Sound) : d.stage.status ≠ .active := by
  obtain ⟨all, told, stage⟩ := d
  cases stage with
  | completing | dropped => simp [Stage.status]
  | ended outcome =>
    intro hactive
    have hfinal := Complete.isFinal h
    simp only [Stage.status] at hactive
    simp [hactive, TransactionStatus.isFinal] at hfinal

/-- **Where the transaction stands**, by the events so far and the notes
of the threads. -/
inductive Stands (t : TransactionId) (tr : Trace S) (s : Setting S) (gs : List (Option Duty)) :
    Prop
  /-- Nobody has taken the participants. -/
  | unclaimed (nobody : ∀ g ∈ gs, g = none)
      (state : s.transaction t = ⟨.active, enlisted t tr⟩)
      (untold : notices tr = []) (won : winners t tr = [])
  /-- Thread `i` has, and nobody else; its duty tells the rest. -/
  | claimed (i : Nat) (d : Duty) (holds : gs[i]? = some (some d))
      (alone : ∀ j d', gs[j]? = some (some d') → j = i) (sound : d.Sound)
      (state : s.transaction t = ⟨d.stage.status, []⟩) (all : enlisted t tr = d.all)
      (told : notices tr = d.told) (teller : ∀ e ∈ tr, (notice? e).isSome → e.thread = i)
      (won : winners t tr = [i])

namespace Stands

variable {tr : Trace S} {s s' : Setting S} {gs : List (Option Duty)} {i : Nat}

/-- Nobody has taken the participants of an active transaction. -/
theorem of_active (h : Stands t tr s gs) (hactive : (s.transaction t).status = .active) :
    (∀ g ∈ gs, g = none) ∧ s.transaction t = ⟨.active, enlisted t tr⟩ ∧ notices tr = [] ∧
      winners t tr = [] := by
  cases h with
  | unclaimed nobody state untold won => exact ⟨nobody, state, untold, won⟩
  | claimed i d holds alone sound state all told teller won =>
    rw [state] at hactive
    exact absurd hactive sound.not_active

/-- The transaction of a thread that holds a duty. -/
theorem state_of_duty (h : Stands t tr s gs) {d : Duty} (hd : gs[i]? = some (some d)) :
    s.transaction t = ⟨d.stage.status, []⟩ := by
  cases h with
  | unclaimed nobody state untold won =>
    exact absurd (nobody _ (List.mem_of_getElem? hd)) nofun
  | claimed j d' holds alone sound state all told teller won =>
    obtain rfl := alone i d hd
    rw [hd, Option.some_inj, Option.some_inj] at holds
    rw [state, holds]

/-- A transaction is active until somebody takes its participants. -/
theorem active_iff (h : Stands t tr s gs) :
    (s.transaction t).status = .active ↔ winners t tr = [] := by
  refine ⟨fun hactive => (h.of_active hactive).2.2.2, fun hnone => ?_⟩
  cases h with
  | unclaimed nobody state untold won => rw [state]
  | claimed i d holds alone sound state all told teller won => simp [won] at hnone

theorem length_winners_le (h : Stands t tr s gs) : (winners t tr).length ≤ 1 := by
  cases h with
  | unclaimed nobody state untold won => simp [won]
  | claimed i d holds alone sound state all told teller won => simp [won]

/-- A winner is a thread that holds a duty. -/
theorem exists_duty (h : Stands t tr s gs) (hi : i ∈ winners t tr) :
    ∃ d, gs[i]? = some (some d) := by
  cases h with
  | unclaimed nobody state untold won => simp [won] at hi
  | claimed j d holds alone sound state all told teller won =>
    rw [won, List.mem_singleton] at hi
    exact ⟨d, hi ▸ holds⟩

theorem eq_of_mem_winners (h : Stands t tr s gs) {j : Nat} (hi : i ∈ winners t tr)
    (hj : j ∈ winners t tr) : i = j := by
  cases h with
  | unclaimed nobody state untold won => simp [won] at hi
  | claimed k d holds alone sound state all told teller won =>
    rw [won, List.mem_singleton] at hi hj
    rw [hi, hj]

/-- Only the winner tells. -/
theorem teller_won (h : Stands t tr s gs) :
    ∀ e ∈ tr, (notice? e).isSome → e.thread ∈ winners t tr := by
  intro e he hsome
  cases h with
  | unclaimed nobody state untold won =>
    rw [notices, List.filterMap_eq_nil_iff] at untold
    simp [untold e he] at hsome
  | claimed i d holds alone sound state all told teller won =>
    rw [won, teller e he hsome]
    exact List.mem_singleton_self i

/-- What was told so far is a beginning of what is owed to the enlisted
participants. -/
theorem underway (h : Stands t tr s gs) : Underway (enlisted t tr) (notices tr) := by
  cases h with
  | unclaimed nobody state untold won =>
    rw [untold]
    exact ⟨[], [], .rollback, List.nil_prefix, List.nil_prefix, rfl, nofun, rfl⟩
  | claimed i d holds alone sound state all told teller won =>
    rw [all, told]
    exact sound.underway

/-- A winner that has done its duty has told everybody the outcome. -/
theorem complete (h : Stands t tr s gs) (hi : i ∈ winners t tr) {g : Option Duty}
    (hg : gs[i]? = some g) (hdone : ∀ d, g = some d → d.Done) :
    Complete (enlisted t tr) (s.transaction t).status (notices tr) := by
  cases h with
  | unclaimed nobody state untold won => simp [won] at hi
  | claimed j d holds alone sound state all told teller won =>
    rw [won, List.mem_singleton] at hi
    subst hi
    rw [hg, Option.some_inj] at holds
    rw [all, told, state]
    exact hdone d holds

/-- An event that neither enlists nor tells nor takes, and leaves the
transaction as it is. -/
theorem quiet (h : Stands t tr s gs) {e : Event interface (Setting S)}
    (henlisted : enlisted? t e = none) (hnotice : notice? e = none) (hwinner : winner? t e = none)
    (hstate : s'.transaction t = s.transaction t) : Stands t (tr ++ [e]) s' gs := by
  have hall : enlisted t (tr ++ [e]) = enlisted t tr := by
    simp [enlisted, henlisted]
  have htold : notices (tr ++ [e]) = notices tr := by simp [notices, hnotice]
  have hwon : winners t (tr ++ [e]) = winners t tr := by
    simp [winners, hwinner]
  cases h with
  | unclaimed nobody state untold won =>
    exact .unclaimed nobody (by rw [hstate, state, hall]) (by rw [htold, untold])
      (by rw [hwon, won])
  | claimed i d holds alone sound state all told teller won =>
    refine .claimed i d holds alone sound (by rw [hstate, state]) (by rw [hall, all])
      (by rw [htold, told]) (fun e' he' hsome => ?_) (by rw [hwon, won])
    rcases List.mem_append.mp he' with he' | he'
    · exact teller e' he' hsome
    · simp [List.mem_singleton.mp he', hnotice] at hsome

/-- A participant joins the active transaction. -/
theorem enlist (h : Stands t tr s gs) (hactive : (s.transaction t).status = .active)
    {e : Event interface (Setting S)} {p : Participant} (henlisted : enlisted? t e = some p)
    (hnotice : notice? e = none) (hwinner : winner? t e = none)
    (hstate : s'.transaction t =
      { s.transaction t with participants := (s.transaction t).participants ++ [p] }) :
    Stands t (tr ++ [e]) s' gs := by
  obtain ⟨nobody, state, untold, won⟩ := h.of_active hactive
  refine .unclaimed nobody ?_ ?_ ?_
  · rw [hstate, state]
    simp [enlisted, henlisted]
  · simpa [notices, hnotice] using untold
  · simpa [winners, hwinner] using won

/-- A thread takes the participants of the active transaction. -/
theorem claim (h : Stands t tr s gs) (hactive : (s.transaction t).status = .active)
    {g : Option Duty} (hg : gs[i]? = some g) {e : Event interface (Setting S)} {stage : Stage}
    (hsound : Duty.Sound ⟨(s.transaction t).participants, [], stage⟩)
    (henlisted : enlisted? t e = none) (hnotice : notice? e = none)
    (hwinner : winner? t e = some i) (hstate : s'.transaction t = ⟨stage.status, []⟩) :
    Stands t (tr ++ [e]) s' (gs.set i (some ⟨(s.transaction t).participants, [], stage⟩)) := by
  obtain ⟨nobody, state, untold, won⟩ := h.of_active hactive
  refine .claimed i _ (getElem?_set_of_some hg _) (fun j d' hj => ?_) hsound hstate ?_ ?_
    (fun e' he' hsome => ?_) ?_
  · by_contra hne
    rw [List.getElem?_set_ne (Ne.symm hne)] at hj
    exact absurd (nobody _ (List.mem_of_getElem? hj)) nofun
  · simp [state, enlisted, henlisted]
  · simpa [notices, hnotice] using untold
  · rcases List.mem_append.mp he' with he' | he'
    · rw [notices, List.filterMap_eq_nil_iff] at untold
      simp [untold e' he'] at hsome
    · simp [List.mem_singleton.mp he', hnotice] at hsome
  · rw [winners, List.filterMap_append, ← winners, won]
    simp [hwinner]

/-- The thread that holds the duty goes on with it: it tells, or it sets
the outcome. -/
theorem proceed (h : Stands t tr s gs) {d d' : Duty} (hd : gs[i]? = some (some d))
    {e : Event interface (Setting S)} (hthread : e.thread = i) (hsound : d'.Sound)
    (hall : d'.all = d.all) (htold : d'.told = d.told ++ (notice? e).toList)
    (henlisted : enlisted? t e = none) (hwinner : winner? t e = none)
    (hstate : s'.transaction t = ⟨d'.stage.status, []⟩) :
    Stands t (tr ++ [e]) s' (gs.set i (some d')) := by
  cases h with
  | unclaimed nobody state untold won =>
    exact absurd (nobody _ (List.mem_of_getElem? hd)) nofun
  | claimed j d₀ holds alone sound state all told teller won =>
    obtain rfl := alone i d hd
    rw [hd, Option.some_inj, Option.some_inj] at holds
    subst holds
    refine .claimed i d' (getElem?_set_of_some hd _) (fun j d'' hj => ?_) hsound hstate ?_ ?_
      (fun e' he' hsome => ?_) ?_
    · by_contra hne
      rw [List.getElem?_set_ne (Ne.symm hne)] at hj
      exact hne (alone j d'' hj)
    · rw [hall, ← all]
      simp [enlisted, henlisted]
    · rw [notices, filterMap_concat, ← notices, told, htold]
    · rcases List.mem_append.mp he' with he' | he'
      · exact teller e' he' hsome
      · rw [List.mem_singleton.mp he', hthread]
    · rw [← won]
      simp [winners, hwinner]

/-- **A section of the transaction**, permitted by the note of its
thread, leaves a note that the discipline foresees. -/
theorem serve_section (h : Stands t tr s gs) {g : Option Duty} (hg : gs[i]? = some g)
    (part : Section) (hpermit : (completing t).Permits g (Request.under (.transaction t part)))
    (hstate : s'.transaction t = ((s.transaction t).run part).1) :
    let e : Event interface (Setting S) :=
      ⟨i, s, Request.under (.transaction t part), some ((s.transaction t).run part).2, s'⟩
    ∃ g', SectionLeads g part ((s.transaction t).run part).2 g' ∧
      Stands t (tr ++ [e]) s' (gs.set i g') ∧ Orderly t e := by
  have hsame : gs.set i g = gs := set_eq_self hg
  cases part with
  | ensureActive | look =>
    refine ⟨g, rfl, ?_, .inl (by rw [hstate]; rfl)⟩
    rw [hsame]
    exact h.quiet rfl rfl rfl hstate
  | enlist p =>
    by_cases hactive : (s.transaction t).status = .active
    · simp only [run, hactive, if_true] at hstate ⊢
      refine ⟨g, rfl, ?_, .inl (by simp [hstate, hactive])⟩
      rw [hsame]
      exact h.enlist (p := p) hactive (by simp [enlisted?]) rfl rfl (by rw [hstate, ← hactive])
    · simp only [run, hactive, if_false] at hstate ⊢
      refine ⟨g, rfl, ?_, .inl (by rw [hstate])⟩
      rw [hsame]
      exact h.quiet rfl rfl rfl hstate
  | begin =>
    by_cases hactive : (s.transaction t).status = .active
    · simp only [run, hactive, if_true] at hstate ⊢
      -- while the transaction is active nobody holds a duty, this thread included
      have hnone := (h.of_active hactive).1 g (List.mem_of_getElem? hg)
      refine ⟨_, ⟨hnone, rfl⟩, ?_, .inr ⟨_, rfl, ?_⟩⟩
      · exact h.claim hactive hg (Duty.sound_begin _) rfl rfl (by simp [winner?]) hstate
      · rw [hstate, hactive]
        exact .begins
    · simp only [run, hactive, if_false] at hstate ⊢
      refine ⟨g, rfl, ?_, .inl (by rw [hstate])⟩
      rw [hsame]
      exact h.quiet rfl rfl rfl hstate
  | finish outcome =>
    obtain ⟨d, rfl, hstage, hsound⟩ := hpermit rfl
    have hcompleting : s.transaction t = ⟨.completing, []⟩ := by
      rw [h.state_of_duty hg, hstage]
      rfl
    refine ⟨_, rfl, ?_, .inr ⟨_, rfl, ?_⟩⟩
    · exact h.proceed hg rfl hsound rfl (by simp [notice?, Duty.finish]) rfl rfl
        (by rw [hstate, hcompleting]; rfl)
    · rw [hstate, hcompleting]
      exact .ends (Complete.isFinal hsound)
  | abandon =>
    by_cases hactive : (s.transaction t).status = .active
    · simp only [run, hactive, if_true] at hstate ⊢
      have hnone := (h.of_active hactive).1 g (List.mem_of_getElem? hg)
      refine ⟨_, .inr ⟨hnone, rfl⟩, ?_, .inr ⟨_, rfl, ?_⟩⟩
      · exact h.claim hactive hg (Duty.sound_abandon _) rfl rfl (by simp [winner?, hactive]) hstate
      · rw [hstate, hactive]
        exact .drops
    · simp only [run, hactive, if_false] at hstate ⊢
      refine ⟨g, .inl ⟨rfl, rfl⟩, ?_, .inl (by rw [hstate])⟩
      rw [hsame]
      exact h.quiet rfl rfl (by simp [winner?, hactive]) hstate

end Stands

/-! ## Every run -/

/-- Surroundings in which the participants of the transaction `t` may use
it, in any way, while they are told. -/
structure Company (t : TransactionId) extends Surroundings where
  uses : ∀ turn id notice, Uses t (Request.Spares t) (react turn id notice)

instance : Inhabited (Company t) :=
  ⟨{ (default : Surroundings) with uses := fun _ _ _ => .done _ }⟩

variable {C : Company t}

/-- A notice is the start of a program that uses the transaction. -/
theorem serve_notify (visit : Visit) (s : Setting C.toSurroundings) (p : Participant)
    (notice : Notice) :
    ∃ (s' : Setting C.toSurroundings) (reaction : Action (Result Unit)),
      Server.serve (I := interface) visit s (.notify p notice) = .runs s' reaction ∧
        s'.transaction t = s.transaction t ∧ Uses t (Request.Spares t) reaction := by
  cases p with
  | delivery e => exact ⟨s, e.notify notice, rfl, rfl, e.uses t notice⟩
  | other id => exact ⟨_, _, rfl, rfl, C.uses _ _ _⟩

/-- A request that has nothing to do with the transaction is permitted,
leaves every note as it is, and tells nothing about the transaction. -/
theorem quiet_of_elsewhere {r : Request} (h : r.Elsewhere t) (i : Nat)
    (s s' : Setting S) (answer : Option r.Answer) :
    let e : Event interface (Setting S) := ⟨i, s, r, answer, s'⟩
    enlisted? t e = none ∧ notice? e = none ∧ winner? t e = none ∧
      ∀ (g : Option Duty) (a : r.Answer), (completing t).Leads g r a g := by
  match r with
  | .under (.transaction id part) =>
    have hid : id ≠ t := h
    cases part with
    | enlist | begin =>
      rcases answer with - | - | - <;> simp [enlisted?, notice?, winner?, completing, hid]
    | ensureActive | finish | abandon | look =>
      simp [enlisted?, notice?, winner?, completing, hid]
  | .under (.queue _ _) | .under (.lifecycle _ _) | .under .newFlag | .under (.settle _)
  | .outside _ => exact ⟨rfl, rfl, rfl, fun _ _ => rfl⟩
  | .notify _ _ => exact h.elim

/-- **The discipline upholds where the transaction stands**, and the
status moves as it may. -/
theorem completing_upholds : (completing t).Upholds (fun _ _ => True)
    (fun (tr : Trace C.toSurroundings) s gs => Stands t tr s gs ∧ ∀ e ∈ tr, Orderly t e) where
  answers := by
    intro tr s s' gs i g visit r signal a ⟨hstands, horderly⟩ _ hg hpermit hserve _
    rcases r.cases_of t with helse | ⟨part, rfl⟩ | ⟨p, notice, rfl⟩
    · obtain ⟨henlisted, hnotice, hwinner, hlead⟩ := quiet_of_elsewhere helse i s s' (some a)
      have hstate := helse.transaction_eq visit s
      rw [hserve] at hstate
      refine ⟨g, hlead g a, ?_, List.forall_mem_append.mpr ⟨horderly, ?_⟩⟩
      · rw [set_eq_self hg]
        exact hstands.quiet henlisted hnotice hwinner hstate
      · simpa using .inl (congrArg Transaction.status hstate)
    · obtain ⟨s'', hstate, hserve'⟩ := serve_section visit s t part
      rw [hserve', Served.answers.injEq] at hserve
      obtain ⟨rfl, -, rfl⟩ := hserve
      obtain ⟨g', hlead, hstands', horder⟩ := hstands.serve_section hg part hpermit hstate
      refine ⟨g', by simpa [completing] using hlead, hstands', ?_⟩
      exact List.forall_mem_append.mpr ⟨horderly, by simpa using horder⟩
    · obtain ⟨s'', reaction, hserve', -⟩ := serve_notify visit s p notice
      rw [hserve'] at hserve
      cases hserve
  sleeps := by
    intro tr s s' gs i g visit r c deadline ⟨hstands, horderly⟩ _ hg hpermit hserve _
    rcases r.cases_of t with helse | ⟨part, rfl⟩ | ⟨p, notice, rfl⟩
    · obtain ⟨henlisted, hnotice, hwinner, -⟩ := quiet_of_elsewhere helse i s s' none
      have hstate := helse.transaction_eq visit s
      rw [hserve] at hstate
      refine ⟨hstands.quiet henlisted hnotice hwinner hstate,
        List.forall_mem_append.mpr ⟨horderly, ?_⟩⟩
      simpa using .inl (congrArg Transaction.status hstate)
    · obtain ⟨s'', -, hserve'⟩ := serve_section visit s t part
      rw [hserve'] at hserve
      cases hserve
    · obtain ⟨s'', reaction, hserve', -⟩ := serve_notify visit s p notice
      rw [hserve'] at hserve
      cases hserve
  runs := by
    intro tr s s' gs i g visit r p ⟨hstands, horderly⟩ _ hg hpermit hserve _
    rcases r.cases_of t with helse | ⟨part, rfl⟩ | ⟨q, notice, rfl⟩
    · exact absurd hserve (helse.serve_ne_runs visit s s' p)
    · obtain ⟨s'', -, hserve'⟩ := serve_section visit s t part
      rw [hserve'] at hserve
      cases hserve
    · obtain ⟨s'', reaction, hserve', hstate, huses⟩ := serve_notify visit s q notice
      rw [hserve', Served.runs.injEq] at hserve
      obtain ⟨rfl, rfl⟩ := hserve
      obtain ⟨d, rfl, hopen, hsound⟩ := hpermit
      -- the notice counts as told from here on, before the participant has done anything
      have hduty := hstate.trans (hstands.state_of_duty hg)
      refine ⟨some (d.tell q notice), ⟨?_, List.forall_mem_append.mpr ⟨horderly, ?_⟩⟩, ?_⟩
      · exact hstands.proceed hg rfl hsound rfl rfl rfl rfl hduty
      · simpa using .inl (congrArg Transaction.status hstate)
      · exact (huses.follows _).mono fun _ g'' hsettles => hsettles.eq_of_some

/-- **Where a new transaction stands at every point of every run** of
programs that use it. A thread that has ended owes nothing. -/
theorem standing {α : Type} {programs : List (Action α)}
    (huses : ∀ p ∈ programs, Uses t (Request.Spares t) p) (w : World)
    (schedule : List (Machine.Move interface α)) :
    let h := (Machine.start (Setting.renewed t w : Setting C.toSurroundings) programs).run schedule
    ∃ gs, Stands t h.trace h.machine.shared gs ∧ (∀ e ∈ h.trace, Orderly t e) ∧
      Follow (completing t) (fun _ _ g => ∀ d, g = some d → d.Done) h.machine.programs gs := by
  have hstart : Stands t ([] : Trace C.toSurroundings) (.renewed t w)
      (programs.map fun _ => none) := by
    refine .unclaimed (fun g hg => ?_) (Setting.transaction_renewed t w) rfl rfl
    obtain ⟨-, -, rfl⟩ := List.mem_map.mp hg
    rfl
  have hfollow : Follow (completing t) (fun _ _ g => ∀ d, g = some d → d.Done) programs
      (programs.map fun _ => none) := by
    refine ⟨List.length_map _, fun {i p} hp => ⟨none, by rw [List.getElem?_map, hp]; rfl, ?_⟩⟩
    refine ((huses p (List.mem_of_getElem? hp)).follows none).mono fun _ g' hsettles d hd => ?_
    rcases hsettles with rfl | ⟨-, d', hd', hdone⟩
    · cases hd
    · rw [hd, Option.some_inj] at hd'
      exact hd' ▸ hdone
  obtain ⟨gs, ⟨hstands, horderly⟩, hfollows⟩ := completing_upholds.run
    ⟨hstart, fun e he => absurd he List.not_mem_nil⟩ hfollow (fun _ => trivial) schedule
  exact ⟨gs, hstands, horderly, hfollows⟩

end MessageIntake.Transaction
