import MessageIntake.Proofs.Transaction.Standing

/-!
# A transaction completes at most once

Any number of threads enlist, complete and discard one transaction, in
any order of their sections and of the single notices, and participants
use it again while they are told. `completes_once` is what that comes
to: the first to take the participants is the only one, it tells each of
them one outcome once, and everybody after it is told the status that
the transaction has by then.

What the participants are told is read off the invariant `Stands`. That
the others do nothing else is proved by a look at their programs: a call
that has not taken the participants has asked for one section and
nothing more (`Idles`).
-/

namespace MessageIntake.Transaction

open Client

variable {S : Surroundings} {t : TransactionId}

/-- The section that a call starts with. -/
def Call.section : Call → Section
  | .enlist p => .enlist p
  | .complete _ => .begin
  | .discard => .abandon

/-- The result of a call that does not complete the transaction, by the
status it finds. -/
def Call.refusal (status : TransactionStatus) : Call → Result Unit
  | .enlist _ => if status = .active then .ok () else .error (notActive status)
  | .complete _ => .error (notActive status)
  | .discard => .ok ()

/-- Whether an event is an attempt to enlist a participant or to begin a
completion. -/
def Attempts (t : TransactionId) (e : Event interface (Setting S)) : Prop :=
  e.request = Request.under (.transaction t .begin) ∨
    ∃ p, e.request = Request.under (.transaction t (.enlist p))

/-- What an attempt is answered. -/
def verdict? : Event interface (Setting S) → Option (Result Unit)
  | ⟨_, _, Request.under (.transaction _ .begin), some (.ok _), _⟩ => some (.ok ())
  | ⟨_, _, Request.under (.transaction _ .begin), some (.error e), _⟩ => some (.error e)
  | ⟨_, _, Request.under (.transaction _ (.enlist _)), answer, _⟩ => answer
  | _ => none

/-! ## The status -/

theorem Moves.not_final {part : Section} {before after : TransactionStatus}
    (h : Moves part before after) : before.isFinal = false := by
  cases h <;> rfl

/-- **A final status never changes.** -/
theorem final_stays {α : Type} {m : Machine interface (Setting S) α}
    (schedule : List (Machine.Move interface α))
    (horderly : ∀ e ∈ (m.run schedule).trace, Orderly t e) :
    ∀ e ∈ (m.run schedule).trace, (e.after.transaction t).status.isFinal →
      ((m.run schedule).machine.shared.transaction t).status = (e.after.transaction t).status := by
  revert horderly
  refine Machine.run_induction (P := fun h => (∀ e ∈ h.trace, Orderly t e) →
    ∀ e ∈ h.trace, (e.after.transaction t).status.isFinal →
      (h.machine.shared.transaction t).status = (e.after.transaction t).status) ?_ ?_ schedule
  · exact fun _ e he => absurd he List.not_mem_nil
  · intro schedule move ih
    generalize m.run schedule = h at ih ⊢
    rcases h.step_cases move with ⟨htrace, hshared, -⟩ | ⟨i, visit, r, next, -, htrace, hshared, -⟩
    · rw [htrace, hshared]
      exact ih
    · rw [htrace, hshared]
      intro horderly e he hfinal
      rw [List.forall_mem_append] at horderly
      rcases List.mem_append.mp he with he | he
      · have hkept := ih horderly.1 e he hfinal
        have hlast := horderly.2 _ List.mem_cons_self
        rcases hlast with hsame | ⟨part, -, hmoves⟩
        · exact hsame.trans hkept
        · have hnot := hmoves.not_final
          simp only [Event.of, hkept, hfinal] at hnot
          cases hnot
      · rw [List.mem_singleton.mp he]
        rfl

/-! ## Attempts -/

/-- The event of a section. -/
theorem event_of_section (i : Nat) (visit : Visit) (s : Setting S) (part : Section) :
    ∃ s' : Setting S, Event.of (I := interface) i visit s (.under (.transaction t part)) =
      ⟨i, s, .under (.transaction t part), some ((s.transaction t).run part).2, s'⟩ := by
  obtain ⟨s', -, hserve⟩ := Client.serve_section visit s t part
  refine ⟨s', ?_⟩
  rw [Event.of, hserve]
  rfl

/-- What an attempt is answered depends on the status it finds. -/
theorem verdict?_of {i : Nat} {visit : Visit} {s : Setting S} {r : interface.Request}
    (h : Attempts t (.of i visit s r)) :
    verdict? (.of i visit s r) = some (if (s.transaction t).status = .active then .ok ()
      else .error (notActive (s.transaction t).status)) := by
  rcases h with h | ⟨p, h⟩
  · obtain rfl : r = Request.under (.transaction t .begin) := h
    obtain ⟨s', hevent⟩ := event_of_section i visit s .begin
    rw [hevent]
    by_cases hactive : (s.transaction t).status = .active <;> simp [run, verdict?, hactive]
  · obtain rfl : r = Request.under (.transaction t (.enlist p)) := h
    obtain ⟨s', hevent⟩ := event_of_section i visit s (.enlist p)
    rw [hevent]
    by_cases hactive : (s.transaction t).status = .active <;> simp [run, verdict?, hactive]

/-! ## Who does not complete the transaction -/

/-- What a thread has done and has left to do that makes the call `c` and
has not taken the participants: nothing yet, or one section and its
result. -/
def Idles (t : TransactionId) (c : Call) (p : Action (Result Unit)) (own : Trace S) : Prop :=
  (own = [] ∧ p = c.action t) ∨
    ∃ e, own = [e] ∧ e.request = Request.under (.transaction t c.section) ∧
      p = .done (c.refusal (e.before.transaction t).status)

/-- **The first section of a call** takes the participants, or it leaves
nothing but the result. -/
theorem Call.first_section (c : Call) (i : Nat) (visit : Visit) (s : Setting S) :
    ∃ next, c.action t = .ask (.under (.transaction t c.section)) next ∧
      (winner? t (.of (I := interface) i visit s (.under (.transaction t c.section))) = some i ∨
        (Server.serve (I := interface) visit s (.under (.transaction t c.section))).resume next =
          .done (c.refusal (s.transaction t).status)) := by
  obtain ⟨s', hevent⟩ := event_of_section (t := t) i visit s c.section
  obtain ⟨s'', -, hserve⟩ := Client.serve_section visit s t c.section
  rw [hevent, hserve]
  cases c with
  | enlist p =>
    refine ⟨_, rfl, .inr ?_⟩
    by_cases hactive : (s.transaction t).status = .active <;>
      simp [Call.section, Call.refusal, run, Served.resume, hactive]
  | complete how =>
    obtain ⟨next, hnext, hrefuse⟩ := how.returns_refusal t
    refine ⟨next, hnext, ?_⟩
    by_cases hactive : (s.transaction t).status = .active
    · exact .inl (by simp [Call.section, run, winner?, hactive])
    · refine .inr ?_
      simp only [Call.section, run, Served.resume, hactive, if_false]
      exact hrefuse _
  | discard =>
    refine ⟨_, rfl, ?_⟩
    by_cases hactive : (s.transaction t).status = .active
    · exact .inl (by simp [Call.section, winner?, hactive])
    · refine .inr ?_
      simp only [Call.section, run, Served.resume, hactive, if_false]
      rfl

/-- A run of calls on the new transaction `t`, one thread each. -/
def runCalls (S : Surroundings) (t : TransactionId) (w : World) (calls : List Call)
    (schedule : List (Machine.Move interface (Result Unit))) :
    History interface (Setting S) (Result Unit) :=
  (Machine.start (.renewed t w) (calls.map (Call.action t))).run schedule

/-- **Whoever has not taken the participants idles.** -/
theorem idles {w : World} {calls : List Call}
    (schedule : List (Machine.Move interface (Result Unit))) {i : Nat} {c : Call}
    (hc : calls[i]? = some c) :
    i ∈ winners t (runCalls S t w calls schedule).trace ∨
      ∃ p, (runCalls S t w calls schedule).machine.programs[i]? = some p ∧
        Idles t c p (eventsOf i (runCalls S t w calls schedule).trace) := by
  refine Machine.run_induction (P := fun h : History interface (Setting S) (Result Unit) =>
    i ∈ winners t h.trace ∨ ∃ p, h.machine.programs[i]? = some p ∧ Idles t c p (eventsOf i h.trace))
    ?_ ?_ schedule
  · refine .inr ⟨c.action t, ?_, .inl ⟨rfl, rfl⟩⟩
    simp [Machine.programs, Machine.start, Phase.program, hc]
  · intro schedule move ih
    generalize (Machine.start (.renewed t w : Setting S) (calls.map (Call.action t))).run schedule
      = h at ih ⊢
    rcases h.step_cases move with ⟨htrace, -, hprograms⟩ |
      ⟨j, visit, r, next, hj, htrace, -, hprograms⟩
    · rwa [htrace, hprograms]
    · rw [htrace, hprograms]
      rcases ih with hwon | ⟨p, hp, hidle⟩
      · exact .inl (winners_subset hwon _)
      by_cases hij : j = i
      · subst hij
        rw [hj, Option.some_inj] at hp
        rcases hidle with ⟨hown, rfl⟩ | ⟨e, -, -, rfl⟩
        · obtain ⟨first, hfirst, hserve⟩ := c.first_section j visit h.machine.shared
          rw [hfirst] at hp
          cases hp
          rcases hserve with hwon | hrest
          · exact .inl (by simp [winners, hwon])
          · refine .inr ⟨_, getElem?_set_of_some hj _, .inr ?_⟩
            refine ⟨.of j visit h.machine.shared _, ?_, rfl, hrest⟩
            rw [eventsOf, List.filter_append, ← eventsOf, hown]
            simp [Event.of]
        · -- its section is behind it, and there is nothing left to ask
          cases hp
      · refine .inr ⟨p, by rw [List.getElem?_set_ne hij, hp], ?_⟩
        have hown : eventsOf i (h.trace ++ [.of j visit h.machine.shared r]) =
            eventsOf i h.trace := by
          simp [eventsOf, Event.of, hij]
        rwa [hown]

/-! ## At most once -/

/-- **What it means that the transaction `t` completes at most once** in
a run of calls on it. -/
structure CompletesOnce (t : TransactionId) (calls : List Call)
    (h : History interface (Setting S) (Result Unit)) : Prop where
  /-- The status moves from active to completing to an outcome, or from
  active to rolled back when the transaction is discarded. -/
  orderly : ∀ e ∈ h.trace, Orderly t e
  /-- A final status never changes. -/
  final : ∀ e ∈ h.trace, (e.after.transaction t).status.isFinal →
    (h.machine.shared.transaction t).status = (e.after.transaction t).status
  /-- At most one call takes the participants. -/
  once : (winners t h.trace).length ≤ 1
  /-- That is the first that tries; every later attempt is answered with
  the status that the transaction has at that moment. -/
  first : ∀ before e later, h.trace = before ++ e :: later → Attempts t e →
    verdict? e = some (if winners t before = [] then .ok ()
      else .error (notActive (e.before.transaction t).status))
  /-- A completion whose attempt fails returns this answer and does nothing
  more, also inside a participant. -/
  returns : ∀ how : Completion, ∃ next : Result (List Participant) → Action (Result Unit),
    how.action t = .ask (.under (.transaction t .begin)) next ∧
      ∀ e, next (.error e) = .done (.error e)
  /-- A call that has returned without taking the participants has asked
  for its section and for nothing else, and its result is the answer. -/
  others : ∀ i c r, calls[i]? = some c → i ∉ winners t h.trace → h.machine.result? i = some r →
    ∃ e, eventsOf i h.trace = [e] ∧ e.request = Request.under (.transaction t c.section) ∧
      r = c.refusal (e.before.transaction t).status
  /-- Only the thread that has taken the participants tells them. -/
  teller : ∀ e ∈ h.trace, (notice? e).isSome → e.thread ∈ winners t h.trace
  /-- Whatever was told so far, was told to those who were enlisted, in
  order: some were asked to prepare, some were told one outcome. -/
  underway : Underway (enlisted t h.trace) (notices h.trace)
  /-- When the call that has taken the participants has returned, everybody
  whose enlistment was accepted was told the outcome, once. -/
  complete : ∀ i ∈ winners t h.trace, (h.machine.result? i).isSome →
    Complete (enlisted t h.trace) (h.machine.shared.transaction t).status (notices h.trace)

/-- **A transaction completes at most once and tells each participant one
outcome once**, whatever the calls, the participants and the schedule
are. -/
theorem completes_once (C : Company t) (w : World) (calls : List Call)
    (schedule : List (Machine.Move interface (Result Unit))) :
    CompletesOnce t calls (runCalls C.toSurroundings t w calls schedule) := by
  have huses : ∀ p ∈ calls.map (Call.action t), Uses t (Request.Spares t) p := by
    intro p hp
    obtain ⟨c, -, rfl⟩ := List.mem_map.mp hp
    exact .ofCall c
  obtain ⟨gs, hstands, horderly, hfollow⟩ := standing (C := C) huses w schedule
  refine
    { orderly := horderly
      final := final_stays schedule horderly
      once := ?_
      first := ?_
      returns := fun how => how.returns_refusal t
      others := ?_
      teller := ?_
      underway := ?_
      complete := ?_ }
  · exact hstands.length_winners_le
  · intro before e later htrace hattempt
    -- what led to the attempt is a run by itself, and says who has taken the participants
    obtain ⟨earlier, i, visit, r, hbefore, rfl⟩ := Machine.event_point schedule htrace
    obtain ⟨gs', hstands', -⟩ := standing (C := C) huses w earlier
    rw [verdict?_of hattempt, ← hbefore]
    exact congrArg some (if_congr hstands'.active_iff rfl rfl)
  · intro i c r hc hnot hr
    rcases idles (S := C.toSurroundings) (w := w) schedule hc with hwon | ⟨p, hp, hidle⟩
    · exact absurd hwon hnot
    · obtain ⟨phase, hphase, hresult⟩ := Option.bind_eq_some_iff.mp hr
      have hdone : p = .done r := by
        simpa [Machine.programs, hphase, Phase.program_of_result? hresult] using hp.symm
      rcases hidle with ⟨-, rfl⟩ | ⟨e, hown, hrequest, hrefusal⟩
      · obtain ⟨next, hnext, -⟩ := c.first_section (t := t) i ⟨0, 0, false⟩
          (.renewed t w : Setting C.toSurroundings)
        rw [hnext] at hdone
        cases hdone
      · rw [hdone] at hrefusal
        cases hrefusal
        exact ⟨e, hown, hrequest, rfl⟩
  · exact hstands.teller_won
  · exact hstands.underway
  · intro i hi hended
    obtain ⟨r, hr⟩ := Option.isSome_iff_exists.mp hended
    obtain ⟨g, hg, hdone⟩ := hfollow.result hr
    exact hstands.complete hi hg hdone

end MessageIntake.Transaction
