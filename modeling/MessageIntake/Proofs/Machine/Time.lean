import MessageIntake.Proofs.Machine.Schedule

/-!
# The time of a thread's requests

Time does not run backwards, and a request remembers when it was made. So
whatever a thread asks after it was given a new program it has made a request
for since then, and is served no earlier than that and no later than now
(`Machine.exists_visit`). The time that it remembers is the one at which the
thread came to the request, be it served at once or later (`Machine.exists_awaits`).
-/

namespace MessageIntake

variable {I : Interface} {σ α : Type}

/-- A visit between two times. -/
structure Visit.Within (since til : Instant) (visit : Visit) : Prop where
  since_le : since ≤ visit.started
  started_le : visit.started ≤ visit.now
  le_til : visit.now ≤ til

namespace Phase

/-- What a thread has asked and has no answer to, and when it made the
request. -/
def pending? : Phase I α → Option (I.Request × Instant)
  | .running _ => none
  | .asking r _ started _ | .asleep r _ started _ _ _ => some (r, started)

theorem pending?_wake (phase : Phase I α) : phase.wake.pending? = phase.pending? := by
  cases phase <;> rfl

end Phase

namespace Machine

/-- What thread `i` has asked and has no answer to, and since when. -/
def pending? (m : Machine I σ α) (i : Nat) : Option (I.Request × Instant) :=
  (m.threads.map Phase.pending?)[i]?.join

theorem pending?_of_threads {m m' : Machine I σ α}
    (h : m'.threads.map Phase.pending? = m.threads.map Phase.pending?) (i : Nat) :
    m'.pending? i = m.pending? i :=
  congrArg (·[i]?.join) h

/-- What stands at a place that something was put at. -/
theorem pending?_of_set {m m' : Machine I σ α} {i : Nat} {phase : Phase I α}
    {pending? : Option (I.Request × Instant)} (hi : m.threads[i]? = some phase)
    (h : m'.threads.map Phase.pending? = (m.threads.map Phase.pending?).set i pending?) (j : Nat) :
    m'.pending? j = if i = j then pending? else m.pending? j := by
  have hlt : i < (m.threads.map Phase.pending?).length := by
    rw [List.length_map]
    exact (List.getElem?_eq_some_iff.mp hi).1
  rw [Machine.pending?, h]
  by_cases hij : i = j
  · subst hij
    rw [List.getElem?_set_self hlt, Option.join_some, if_pos rfl]
  · rw [List.getElem?_set_ne hij, if_neg hij]
    rfl

theorem pending?_wake (m : Machine I σ α) (i j : Nat) : (m.wake i).pending? j = m.pending? j :=
  pending?_of_threads (map_deliver Phase.pending?_wake (fun _ _ => some i) (.one 0) _) j

/-- A thread that makes its request has it pending since then. -/
theorem pending?_enter (m : Machine I σ α) (i j : Nat) :
    (m.enter i).pending? j = m.pending? j ∨
      ∃ r, i = j ∧ m.asks? j = some (⟨m.clock, m.clock, false⟩, r) ∧
        (m.enter i).pending? j = some (r, m.clock) := by
  rcases m.enter_cases i with hstay | ⟨r, next, hi, hset⟩
  · exact .inl (by rw [hstay])
  · have hthreads : (m.enter i).threads.map Phase.pending? =
        (m.threads.map Phase.pending?).set i (some (r, m.clock)) := by
      rw [hset, List.map_set]
      rfl
    have hpending := pending?_of_set hi hthreads j
    by_cases hij : i = j
    · subst hij
      rw [if_pos rfl] at hpending
      exact .inr ⟨r, rfl, by simp [asks?, hi], hpending⟩
    · rw [if_neg hij] at hpending
      exact .inl hpending

variable [Server I σ] {m : Machine I σ α}

/-- A thread that is served sleeps for what it has asked, and has no answer yet, or it
goes on. -/
theorem map_pending?_serve (choose : Chooser I α) (i : Nat) (visit : Visit) (r : I.Request)
    (next : I.Answer r → Program I α) :
    ∃ pending?, (∀ pending ∈ pending?, pending = (r, visit.started) ∧
        (Server.serve visit m.shared r).answer? = none) ∧
      (m.serve choose i visit r next).threads.map Phase.pending? =
        (m.threads.map Phase.pending?).set i pending? := by
  unfold serve
  cases Server.serve visit m.shared r with
  | answers s signal a =>
    refine ⟨none, nofun, ?_⟩
    rw [List.map_set, map_deliver Phase.pending?_wake]
    rfl
  | sleeps s c deadline =>
    refine ⟨some (r, visit.started), fun _ h => ⟨(Option.mem_some.mp h).symm, rfl⟩, ?_⟩
    rw [List.map_set]
    rfl
  | runs s p =>
    refine ⟨none, nofun, ?_⟩
    rw [List.map_set]
    rfl

theorem clock_serve (choose : Chooser I α) (i : Nat) (visit : Visit) (r : I.Request)
    (next : I.Answer r → Program I α) : (m.serve choose i visit r next).clock = m.clock := by
  unfold serve
  split <;> rfl

end Machine

variable [Server I σ]

/-- Time does not run backwards. -/
theorem History.clock_le_step (h : History I σ α) (move : Machine.Move I α) :
    h.machine.clock ≤ (h.step move).machine.clock := by
  cases move with
  | enter i | wake i => exact Nat.le_refl _
  | tick d => exact Nat.le_add_right _ d
  | advance waker i =>
    rcases h.machine.advance_cases waker.choose i with ⟨-, hstay⟩ |
      ⟨phase, visit, r, next, -, -, -, hserve⟩
    · exact Nat.le_of_eq (congrArg Machine.clock hstay).symm
    · have hclock : (h.machine.advance waker.choose i).clock = h.machine.clock := by
        rw [hserve, Machine.clock_serve]
      exact Nat.le_of_eq hclock.symm

theorem Machine.clock_le_run (m : Machine I σ α) (schedule : List (Move I α)) :
    m.clock ≤ (m.run schedule).machine.clock :=
  run_induction (P := fun h => m.clock ≤ h.machine.clock) (Nat.le_refl _)
    (fun _ move ih => Nat.le_trans ih (History.clock_le_step _ move)) schedule

/-- **What a thread has asked since a time**, it was served between then and
now; and what it has no answer to, it has asked in between. -/
structure History.Timely (since : Instant) (i : Nat) (h : History I σ α) : Prop where
  since_le : since ≤ h.machine.clock
  asked : ∀ pending ∈ h.machine.pending? i, since ≤ pending.2 ∧ pending.2 ≤ h.machine.clock
  events : ∀ e ∈ h.trace, e.thread = i →
    ∃ visit, visit.Within since h.machine.clock ∧ e = .of i visit e.before e.request

namespace History.Timely

variable {since : Instant} {i j : Nat} {h : History I σ α}

/-- What was so stays so as time passes. -/
theorem of_clock_le {h' : History I σ α} (htimely : h.Timely since i) (htrace : h'.trace = h.trace)
    (hclock : h.machine.clock ≤ h'.machine.clock)
    (hpending : h'.machine.pending? i = h.machine.pending? i) : h'.Timely since i where
  since_le := Nat.le_trans htimely.since_le hclock
  asked pending hmem := by
    rw [hpending] at hmem
    obtain ⟨hsince, hle⟩ := htimely.asked pending hmem
    exact ⟨hsince, Nat.le_trans hle hclock⟩
  events e he hthread := by
    rw [htrace] at he
    obtain ⟨visit, hvisit, heq⟩ := htimely.events e he hthread
    exact ⟨visit, ⟨hvisit.since_le, hvisit.started_le, Nat.le_trans hvisit.le_til hclock⟩, heq⟩

/-- What a thread asks next it has asked since then. -/
theorem within (htimely : h.Timely since i) {phase : Phase I α} {visit : Visit} {r : I.Request}
    {next : I.Answer r → Program I α} (hi : h.machine.threads[i]? = some phase)
    (hasks : phase.Asks h.machine.clock visit r next) : visit.Within since h.machine.clock := by
  cases hasks with
  | running => exact ⟨htimely.since_le, Nat.le_refl _, Nat.le_refl _⟩
  | asking r next started waited =>
    have hpending : h.machine.pending? i = some (r, started) := by
      simp [Machine.pending?, hi, Phase.pending?]
    obtain ⟨hsince, hle⟩ := htimely.asked _ hpending
    exact ⟨hsince, hle, Nat.le_refl _⟩

/-- One request is made. -/
theorem enter (htimely : h.Timely since i) (j : Nat) : (h.step (.enter j)).Timely since i := by
  rcases h.machine.pending?_enter j i with hsame | ⟨r, -, -, hpending⟩
  · exact htimely.of_clock_le rfl (Nat.le_refl _) hsame
  · refine ⟨htimely.since_le, fun pending hmem => ?_, htimely.events⟩
    rw [show (h.step (.enter j)).machine.pending? i = _ from hpending] at hmem
    obtain rfl := Option.mem_some.mp hmem
    exact ⟨htimely.since_le, Nat.le_refl _⟩

/-- One request more. -/
theorem advance (htimely : h.Timely since i) {phase : Phase I α} {visit : Visit} {r : I.Request}
    {next : I.Answer r → Program I α} (hj : h.machine.threads[j]? = some phase)
    (hasks : phase.Asks h.machine.clock visit r next) (waker : Machine.Waker I α) :
    (h.step (.advance waker j)).Timely since i := by
  obtain ⟨hevent, hserve⟩ := Machine.advance_of_asks hj hasks waker.choose
  obtain ⟨pending?, hpending?, hthreads⟩ :=
    h.machine.map_pending?_serve waker.choose j visit r next
  have hclock := h.machine.clock_serve waker.choose j visit r next
  have hwithin : j = i → visit.Within since h.machine.clock := by
    rintro rfl
    exact htimely.within hj hasks
  simp only [History.step, hevent, hserve, Option.toList_some]
  -- the thread that moves may be another, which leaves what this one has asked
  refine ⟨?_, fun pending hmem => ?_, fun e he hthread => ?_⟩
  · rw [hclock]
    exact htimely.since_le
  · rw [hclock]
    rw [Machine.pending?_of_set hj hthreads] at hmem
    by_cases hij : j = i
    · rw [if_pos hij] at hmem
      obtain ⟨hsince, hle, hnow⟩ := hwithin hij
      rw [(hpending? pending hmem).1]
      exact ⟨hsince, Nat.le_trans hle hnow⟩
    · rw [if_neg hij] at hmem
      exact htimely.asked pending hmem
  · rw [hclock]
    rcases List.mem_append.mp he with he | he
    · exact htimely.events e he hthread
    · rw [List.mem_singleton] at he
      subst he
      have hji : j = i := hthread
      subst hji
      exact ⟨visit, hwithin rfl, rfl⟩

theorem step (htimely : h.Timely since i) (move : Machine.Move I α) :
    (h.step move).Timely since i := by
  cases move with
  | enter j => exact htimely.enter j
  | wake j => exact htimely.of_clock_le rfl (Nat.le_refl _) (h.machine.pending?_wake j i)
  | tick d => exact htimely.of_clock_le rfl (Nat.le_add_right _ d) rfl
  | advance waker j =>
    rcases h.machine.advance_cases waker.choose j with ⟨hevent, hstay⟩ |
      ⟨phase, visit, r, next, hj, hasks, -, -⟩
    · simp only [History.step, hevent, hstay, Option.toList_none, List.append_nil]
      exact htimely
    · exact htimely.advance hj hasks waker

end History.Timely

/-- **A thread that was given a new program** is served between then and now,
and has asked since then for what it is served. -/
theorem Machine.exists_visit {m : Machine I σ α} {i : Nat} {p : Program I α}
    {schedule : List (Move I α)} {e : Event I σ} (he : e ∈ ((m.assign i p).run schedule).trace)
    (hthread : e.thread = i) :
    ∃ visit, visit.Within m.clock ((m.assign i p).run schedule).machine.clock ∧
      e = .of i visit e.before e.request := by
  have hstart : (⟨[], m.assign i p⟩ : History I σ α).Timely m.clock i := by
    refine ⟨Nat.le_refl _, fun pending hmem => ?_, nofun⟩
    have hnone : (m.assign i p).pending? i = none := by
      by_cases hi : i < m.threads.length <;> simp [Machine.pending?, assign, hi, Phase.pending?]
    rw [show (⟨[], m.assign i p⟩ : History I σ α).machine.pending? i = _ from hnone] at hmem
    cases hmem
  exact (run_induction (P := History.Timely m.clock i) hstart
    (fun _ move ih => ih.step move) schedule).events e he hthread

/-! ## When a request was made -/

omit [Server I σ] in
theorem Phase.Asks.asks? {m : Machine I σ α} {i : Nat} {phase : Phase I α} {visit : Visit}
    {r : I.Request} {next : I.Answer r → Program I α} (h : phase.Asks m.clock visit r next)
    (hi : m.threads[i]? = some phase) : m.asks? i = some (visit, r) := by
  cases h <;> simp [Machine.asks?, hi]

namespace Machine

variable {m : Machine I σ α} {i : Nat} {r : I.Request}

/-- No thread has anything pending. -/
def Fresh (m : Machine I σ α) : Prop := ∀ i, m.pending? i = none

omit [Server I σ] in
/-- What is asked is asked for now, or it is what was pending. -/
theorem visit_of_asks? {visit : Visit} (h : m.asks? i = some (visit, r)) :
    visit = ⟨m.clock, m.clock, false⟩ ∨ m.pending? i = some (r, visit.started) := by
  unfold asks? at h
  split at h
  · cases h
    exact .inl rfl
  · rename_i hi
    cases h
    exact .inr (by simp [pending?, hi, Phase.pending?])
  · cases h

omit [Server I σ] in
theorem now_of_asks? {visit : Visit} (h : m.asks? i = some (visit, r)) : visit.now = m.clock := by
  unfold asks? at h
  split at h <;> cases h <;> rfl

/-- **Whatever happens is a move of the thread that it happens to**, which asks for it
there. -/
theorem exists_asks_of_mem {schedule : List (Move I α)} {e : Event I σ}
    (h : e ∈ (m.run schedule).trace) :
    ∃ earlier waker later visit, schedule = earlier ++ .advance waker e.thread :: later ∧
      (m.run earlier).machine.asks? e.thread = some (visit, e.request) ∧
      e = .of e.thread visit (m.run earlier).machine.shared e.request := by
  obtain ⟨before, later, htrace⟩ := List.append_of_mem h
  obtain ⟨earlier, move, rest, rfl, hbefore, -, hmove, -⟩ := run_split schedule htrace
  rw [run_concat] at hmove
  cases move with
  | enter i => simp [History.step, hbefore] at hmove
  | wake i => simp [History.step, hbefore] at hmove
  | tick d => simp [History.step, hbefore] at hmove
  | advance waker i =>
    have hevent : (m.run earlier).machine.event? i = some e := by
      simpa [History.step, hbefore, Option.toList_eq_singleton_iff] using hmove
    obtain ⟨⟨visit, r⟩, hasks, rfl⟩ := Option.map_eq_some_iff.mp hevent
    exact ⟨earlier, waker, rest, visit, rfl, hasks, rfl⟩

/-- **A move by which thread `i` makes its request**, to be served later or at once. -/
inductive Move.Makes (i : Nat) : Move I α → Prop
  | enter : Makes i (.enter i)
  | advance (waker : Waker I α) : Makes i (.advance waker i)

/-- **A request that thread `i` makes after `first`**, by the next move, and has no answer
to after the `rest`. -/
structure Awaits (m : Machine I σ α) (i : Nat) (r : I.Request)
    (first rest : List (Move I α)) : Prop where
  asks : (m.run first).machine.asks? i =
    some (⟨(m.run first).machine.clock, (m.run first).machine.clock, false⟩, r)
  makes : ∀ move ∈ rest.head?, move.Makes i
  unanswered : ∀ e ∈ ((m.run first).machine.run rest).trace, e.thread = i → e.answer = none

end Machine

section Awaits

variable {m : Machine I σ α} {i : Nat} {r : I.Request}

/-- One move more. -/
theorem Machine.Awaits.concat {first rest : List (Machine.Move I α)} {move : Machine.Move I α}
    (h : m.Awaits i r first rest) (hmakes : ∀ made ∈ (rest ++ [move]).head?, made.Makes i)
    {later : List (Event I σ)}
    (htrace : ((m.run (first ++ rest)).step move).trace = (m.run (first ++ rest)).trace ++ later)
    (hlater : ∀ e ∈ later, e.thread = i → e.answer = none) : m.Awaits i r first (rest ++ [move]) where
  asks := h.asks
  makes := hmakes
  unanswered e he hthread := by
    have hbefore := congrArg History.trace (run_append (m := m) first rest)
    have hafter := congrArg History.trace (run_append (m := m) first (rest ++ [move]))
    rw [← List.append_assoc, run_concat, htrace, hbefore, List.append_assoc] at hafter
    rw [← List.append_cancel_left hafter] at he
    rcases List.mem_append.mp he with he | he
    · exact h.unanswered e he hthread
    · exact hlater e he hthread

/-- **What a move leaves pending** was pending before it, or it is what the thread has
asked by it. -/
theorem History.pending?_step (h : History I σ α) (move : Machine.Move I α) (i : Nat) :
    ∃ later, (h.step move).trace = h.trace ++ later ∧
      (((h.step move).machine.pending? i = h.machine.pending? i ∧
          ∀ e ∈ later, e.thread ≠ i) ∨
        ∃ visit r, move.Makes i ∧ h.machine.asks? i = some (visit, r) ∧
          ∀ pending ∈ (h.step move).machine.pending? i,
            pending = (r, visit.started) ∧ ∀ e ∈ later, e.answer = none) := by
  cases move with
  | tick d => exact ⟨[], (List.append_nil _).symm, .inl ⟨rfl, nofun⟩⟩
  | wake j => exact ⟨[], (List.append_nil _).symm, .inl ⟨h.machine.pending?_wake j i, nofun⟩⟩
  | enter j =>
    refine ⟨[], (List.append_nil _).symm, ?_⟩
    rcases h.machine.pending?_enter j i with hsame | ⟨r, rfl, hasks, hpending⟩
    · exact .inl ⟨hsame, nofun⟩
    · refine .inr ⟨_, r, .enter, hasks, fun pending hmem => ⟨?_, nofun⟩⟩
      exact (Option.mem_some.mp (hpending ▸ hmem)).symm
  | advance waker j =>
    rcases h.machine.advance_cases waker.choose j with ⟨hevent, hstay⟩ |
      ⟨phase, visit, r, next, hj, hasks, hevent, hserve⟩
    · refine ⟨[], by simp [step, hevent], .inl ⟨?_, nofun⟩⟩
      simp [step, hstay]
    · obtain ⟨pending?, hpending, hthreads⟩ := h.machine.map_pending?_serve waker.choose j visit r next
      have hset := Machine.pending?_of_set hj hthreads i
      refine ⟨[.of j visit h.machine.shared r], by simp [step, hevent], ?_⟩
      simp only [step, hserve, hset]
      by_cases hij : j = i
      · subst hij
        refine .inr ⟨visit, r, .advance waker, hasks.asks? hj, fun pending hmem => ?_⟩
        rw [if_pos rfl] at hmem
        obtain ⟨heq, hanswer⟩ := hpending pending hmem
        refine ⟨heq, fun e he => ?_⟩
        rw [List.mem_singleton.mp he]
        exact hanswer
      · refine .inl ⟨if_neg hij, fun e he => ?_⟩
        rw [List.mem_singleton.mp he]
        exact hij

/-- What is pending was asked for at the time it says, and has no answer since. -/
theorem Machine.exists_awaits_of_pending (hm : m.Fresh) (schedule : List (Move I α)) :
    ∀ {started : Instant}, (m.run schedule).machine.pending? i = some (r, started) →
      ∃ first made rest, schedule = first ++ made :: rest ∧ m.Awaits i r first (made :: rest) ∧
        started = (m.run first).machine.clock := by
  induction schedule using List.reverseRecOn with
  | nil =>
    intro started h
    rw [show (m.run []).machine = m from rfl, hm i] at h
    cases h
  | append_singleton schedule move ih =>
    intro started h
    rw [run_concat] at h
    obtain ⟨later, htrace, ⟨hsame, hothers⟩ | ⟨visit, r', hmakes, hasks, hpending⟩⟩ :=
      (m.run schedule).pending?_step move i
    · rw [hsame] at h
      obtain ⟨first, made, rest, rfl, hawaits, hstarted⟩ := ih h
      exact ⟨first, made, rest ++ [move], List.append_assoc _ _ _,
        hawaits.concat hawaits.makes htrace fun e he hthread => absurd hthread (hothers e he),
        hstarted⟩
    · obtain ⟨heq, hanswer⟩ := hpending _ h
      obtain ⟨rfl, rfl⟩ := Prod.mk.inj heq
      have hunanswered : ∀ e ∈ later, e.thread = i → e.answer = none := fun e he _ => hanswer e he
      rcases visit_of_asks? hasks with hvisit | hvisit
      · have hfirst : m.Awaits i r schedule [] := ⟨by rw [hasks, hvisit], nofun, nofun⟩
        refine ⟨schedule, move, [], rfl, ?_, by rw [hvisit]⟩
        rw [← List.append_nil schedule] at htrace
        refine hfirst.concat (fun made hmade => ?_) htrace hunanswered
        obtain rfl := Option.mem_some.mp hmade
        exact hmakes
      · obtain ⟨first, made, rest, rfl, hawaits, hstarted⟩ := ih hvisit
        exact ⟨first, made, rest ++ [move], List.append_assoc _ _ _,
          hawaits.concat hawaits.makes htrace hunanswered, hstarted⟩

/-- **Whatever is asked was asked for at the time that it remembers**, and has no answer
since. -/
theorem Machine.exists_awaits (hm : m.Fresh) {schedule : List (Move I α)} {visit : Visit}
    (h : (m.run schedule).machine.asks? i = some (visit, r)) :
    ∃ first rest, schedule = first ++ rest ∧ m.Awaits i r first rest ∧
      visit.started = (m.run first).machine.clock := by
  rcases visit_of_asks? h with hvisit | hpending
  · exact ⟨schedule, [], (List.append_nil _).symm, ⟨by rw [h, hvisit], nofun, nofun⟩, by rw [hvisit]⟩
  · obtain ⟨first, made, rest, hschedule, hawaits⟩ := exists_awaits_of_pending hm schedule hpending
    exact ⟨first, made :: rest, hschedule, hawaits⟩

end Awaits

end MessageIntake
