import MessageIntake.Proofs.Consumer.Acknowledgment
import MessageIntake.Proofs.Consumer.Flags
import MessageIntake.Proofs.Machine.Bounded

/-!
# The first verdict settles

Threads give notices to one enlistment, each one after another and all of them at
once. A commit or a rollback is a verdict: it looks at the flag of the enlistment, sets
it, and calls the channel if it was not set before. The flag is set before the channel
is called, so what the channel answers has no say in it: the first verdict that reaches
the enlistment makes one call, and returns its answer; all else succeeds and sends
nothing, whatever comes later and whether the call has failed (`settles_by_first`).

`Heeds` is what one notice does by its events, `lost_of_turns` and `won_of_turns` what
the notices of a thread do, by whether one of them was the first; that there is one
first is `Marked`, which every run keeps.
-/

namespace MessageIntake.Verdict

open Client Settlement
open Acknowledgment (Sent)

variable {S : Surroundings} {e : Enlistment}

/-! ## What is read off a run -/

/-- A verdict reaches the enlistment: the thread that gives it, and whether the flag was
not set before. -/
def reached? (e : Enlistment) : Event interface (Setting S) → Option (Nat × Bool)
  | ⟨i, _, Request.under (.settle flag), some fresh, _⟩ =>
    if flag = e.flag then some (i, fresh) else none
  | _ => none

/-- The call on a channel that an event makes. -/
def called? : Event interface (Setting S) → Option Sent
  | ⟨_, _, Request.outside (.channel id call), some answer, _⟩ => some ⟨id, call, answer⟩
  | _ => none

/-- The verdicts that have reached the enlistment, in order. -/
def verdicts (e : Enlistment) (trace : Trace S) : List (Nat × Bool) :=
  trace.filterMap (reached? e)

/-- The calls on channels, in order. -/
def calls (trace : Trace S) : List Sent := trace.filterMap called?

/-! ## One notice -/

/-- **How far a notice has come**, by its events and, once it has returned, its reply. -/
inductive Heeds (e : Enlistment) (notice : Notice) (events : Trace S) :
    Option (Result Unit) → Prop
  /-- It is no verdict, and succeeds without doing anything. -/
  | passes {reply? : Option (Result Unit)} : e.call? notice = none →
    verdicts e events = [] → calls events = [] → (∀ r ∈ reply?, r = .ok ()) →
    Heeds e notice events reply?
  /-- A verdict that has not reached the enlistment yet. -/
  | waits {call : Channel.Call} : e.call? notice = some call →
    verdicts e events = [] → calls events = [] → Heeds e notice events none
  /-- It comes after another, and succeeds without doing anything. -/
  | late {call : Channel.Call} {i : Nat} : e.call? notice = some call →
    verdicts e events = [(i, false)] → calls events = [] → Heeds e notice events (some (.ok ()))
  /-- It is the first, and is about to call the channel. -/
  | first {call : Channel.Call} {i : Nat} : e.call? notice = some call →
    verdicts e events = [(i, true)] → calls events = [] → Heeds e notice events none
  /-- It has called the channel, and returns the answer. -/
  | settles {call : Channel.Call} {i : Nat} {answer : Result Unit} : e.call? notice = some call →
    verdicts e events = [(i, true)] → calls events = [⟨e.channel, call, answer⟩] →
    Heeds e notice events (some answer)

/-- A verdict looks at the flag, and goes on to the channel if it is the first. -/
theorem settle_heeds {notice : Notice} {call : Channel.Call} (hcall : e.call? notice = some call)
    {events : Trace S} {q : Action (Result Unit)} (h : Walk (e.settle call) events q) :
    Heeds e notice events q.result? := by
  rcases h.of_prompt_ask (fun _ _ => rfl) with ⟨rfl, rfl⟩ |
    ⟨i, visit, s, fresh, later, rfl, hfresh, h⟩
  · exact .waits hcall rfl rfl
  have hreached : verdicts e (.of i visit s (.under (.settle e.flag)) :: later) =
      (i, fresh) :: verdicts e later := by
    simp [verdicts, Event.of, reached?, hfresh]
  have hsilent : calls (.of (I := interface) i visit s (.under (.settle e.flag)) :: later) =
      calls later := rfl
  cases fresh with
  | false =>
    obtain ⟨rfl, rfl⟩ := h.of_done
    exact .late hcall hreached hsilent
  | true =>
    rcases h.of_prompt_ask (fun _ _ => rfl) with ⟨rfl, rfl⟩ |
      ⟨j, visit', s', answer, rest, rfl, hanswer, h⟩
    · exact .first hcall hreached hsilent
    · obtain ⟨rfl, rfl⟩ := h.of_done
      refine .settles hcall hreached (hsilent.trans ?_)
      simp [calls, Event.of, called?, hanswer]

/-- **What a notice does.** -/
theorem notify_heeds {notice : Notice} {events : Trace S} {q : Action (Result Unit)}
    (h : Walk (e.notify notice) events q) : Heeds e notice events q.result? := by
  cases notice with
  | prepare =>
    obtain ⟨rfl, rfl⟩ := h.of_done
    exact .passes rfl rfl rfl fun r hr => (Option.some.inj hr).symm
  | inDoubt =>
    rcases h.of_prompt_ask (fun _ _ => rfl) with ⟨rfl, rfl⟩ | ⟨i, visit, s, _, later, rfl, -, h⟩
    · exact .passes rfl rfl rfl nofun
    · obtain ⟨rfl, rfl⟩ := h.of_done
      exact .passes rfl rfl rfl fun r hr => (Option.some.inj hr).symm
  | commit | rollback => exact settle_heeds rfl h

/-! ## One thread -/

/-- A thread that gives one notice after another. -/
def tell (e : Enlistment) (notices : List Notice) : Action (List (Result Unit)) :=
  .inTurn (notices.map e.notify)

/-- What notices return of which none is the first verdict. -/
def allOk (notices : List Notice) : List (Result Unit) := notices.map fun _ => .ok ()

/-- What notices return if the first verdict among them is answered so. -/
def replies (e : Enlistment) (answer : Result Unit) : List Notice → List (Result Unit)
  | [] => []
  | notice :: rest =>
    if (e.call? notice).isSome then answer :: allOk rest else .ok () :: replies e answer rest

section Turns

variable {notices : List Notice} {events : Trace S} {results : List (Result Unit)}

theorem length_replies (e : Enlistment) (answer : Result Unit) (notices : List Notice) :
    (replies e answer notices).length = notices.length := by
  induction notices with
  | nil => rfl
  | cons notice rest ih =>
    unfold replies
    split
    · simp [allOk]
    · simp [ih]

theorem verdicts_append (e : Enlistment) (earlier later : Trace S) :
    verdicts e (earlier ++ later) = verdicts e earlier ++ verdicts e later :=
  List.filterMap_append

theorem calls_append (earlier later : Trace S) :
    calls (earlier ++ later) = calls earlier ++ calls later := List.filterMap_append

/-- **A thread none of whose verdicts is the first** sends nothing, and all its notices
succeed. -/
theorem lost_of_turns (h : InTurn e.notify (Heeds e) notices events results)
    (hlate : ∀ x ∈ verdicts e events, x.2 = false) :
    calls events = [] ∧ results <+: allOk notices := by
  induction h with
  | waits notices => exact ⟨rfl, List.nil_prefix⟩
  | underWay _ _ hheeds =>
    refine ⟨?_, List.nil_prefix⟩
    cases hheeds with
    | passes _ _ hcalls | waits _ _ hcalls | first _ _ hcalls => exact hcalls
  | returns _ hheeds _ ih =>
    rw [verdicts_append, List.forall_mem_append] at hlate
    obtain ⟨hcalls, hresults⟩ := ih hlate.2
    rw [calls_append, hcalls, List.append_nil]
    cases hheeds with
    | passes _ _ hnone hreply =>
      obtain rfl := hreply _ rfl
      exact ⟨hnone, (List.prefix_cons_inj _).mpr hresults⟩
    | late _ _ hnone => exact ⟨hnone, (List.prefix_cons_inj _).mpr hresults⟩
    | settles _ hfirst =>
      have hfalse := hlate.1 _ (hfirst ▸ List.mem_singleton_self _)
      cases hfalse

/-- **A thread one of whose verdicts is the first**: it is the first one of the thread, is
about to call the channel, or has called it once. -/
theorem won_of_turns (h : InTurn e.notify (Heeds e) notices events results) {i : Nat}
    {later : List (Nat × Bool)} (hfirst : verdicts e events = (i, true) :: later)
    (hlate : ∀ x ∈ later, x.2 = false) :
    ∃ call, notices.findSome? e.call? = some call ∧
      (calls events = [] ∧ results <+: allOk notices ∧ results.length < notices.length ∨
        ∃ answer, calls events = [⟨e.channel, call, answer⟩] ∧
          results <+: replies e answer notices) := by
  induction h with
  | waits notices => cases hfirst
  | @underWay notice notices events q _ _ hheeds =>
    cases hheeds with
    | passes _ hnone | waits _ hnone =>
      rw [hnone] at hfirst
      cases hfirst
    | @first call j hcall _ hcalls =>
      exact ⟨call, by rw [List.findSome?_cons, hcall],
        .inl ⟨hcalls, List.nil_prefix, Nat.succ_pos _⟩⟩
  | @returns notice notices events rest reply results _ hheeds hturns ih =>
    rw [verdicts_append] at hfirst
    rw [calls_append]
    cases hheeds with
    | passes hcall hnone hsilent hreply =>
      obtain rfl := hreply _ rfl
      rw [hnone] at hfirst
      obtain ⟨call, hfound, hstate⟩ := ih hfirst
      refine ⟨call, by rw [List.findSome?_cons, hcall]; exact hfound, ?_⟩
      rw [hsilent, List.nil_append]
      refine hstate.imp (fun ⟨hcalls, hresults, hlength⟩ => ?_) fun ⟨answer, hcalls, hresults⟩ => ?_
      · exact ⟨hcalls, (List.prefix_cons_inj _).mpr hresults, Nat.succ_lt_succ hlength⟩
      · refine ⟨answer, hcalls, ?_⟩
        rw [replies, hcall]
        exact (List.prefix_cons_inj _).mpr hresults
    | late _ hlost =>
      rw [hlost] at hfirst
      cases hfirst
    | @settles call j _ hcall hwon hcalls =>
      rw [hwon] at hfirst
      obtain ⟨-, rfl⟩ := List.cons.inj hfirst
      obtain ⟨hsilent, hresults⟩ := lost_of_turns hturns hlate
      refine ⟨call, by rw [List.findSome?_cons, hcall], .inr ⟨reply, ?_, ?_⟩⟩
      · rw [hcalls, hsilent, List.append_nil]
      · rw [replies, hcall]
        exact (List.prefix_cons_inj _).mpr hresults

/-- A verdict that has returned has reached the enlistment. -/
theorem reached_of_turns (h : InTurn e.notify (Heeds e) notices events results)
    (hall : results.length = notices.length) (hverdict : (notices.findSome? e.call?).isSome) :
    verdicts e events ≠ [] := by
  induction h with
  | waits notices =>
    obtain rfl := List.eq_nil_of_length_eq_zero hall.symm
    cases hverdict
  | underWay => cases hall
  | returns _ hheeds _ ih =>
    rw [verdicts_append]
    cases hheeds with
    | passes hcall hnone =>
      rw [List.findSome?_cons, hcall] at hverdict
      exact List.append_ne_nil_of_right_ne_nil _ (ih (Nat.succ.inj hall) hverdict)
    | late _ hreached | settles _ hreached =>
      rw [hreached]
      exact List.cons_ne_nil _ _

end Turns

/-! ## The flag -/

/-- What who gives notices to `e` asks: its flag, and the outside. -/
def Asked (e : Enlistment) : Request → Prop
  | .under (.settle flag) => flag = e.flag
  | .outside _ => True
  | .under _ | .notify _ _ => False

theorem cases_of_asked {r : Request} (h : Asked e r) :
    (∃ call, r = .outside call) ∨ r = .under (.settle e.flag) := by
  cases r with
  | outside call => exact .inl ⟨call, rfl⟩
  | notify participant notice => exact h.elim
  | under lock =>
    cases lock with
    | settle flag =>
      obtain rfl : flag = e.flag := h
      exact .inr rfl
    | queue | lifecycle | transaction | newFlag => exact h.elim

theorem notify_asks (e : Enlistment) (notice : Notice) :
    (e.notify notice).Asks (Asked e) ∧ (e.notify notice).Within 2 := by
  have hsettle (call : Channel.Call) :
      (e.settle call).Asks (Asked e) ∧ (e.settle call).Within 2 := by
    refine ⟨.ask rfl fun fresh => ?_, .ask fun fresh => ?_⟩ <;> cases fresh
    · exact .done _
    · exact .ask trivial fun _ => .done _
    · exact .done 1 _
    · exact .ask fun _ => .done 0 _
  cases notice with
  | prepare => exact ⟨.done _, .done 2 _⟩
  | inDoubt => exact ⟨.ask trivial fun _ => .done _, .ask fun _ => .done 1 _⟩
  | commit | rollback => exact hsettle _

/-- A thread asks two things at most for each notice. -/
theorem tell_asks (e : Enlistment) (notices : List Notice) :
    (tell e notices).Asks (Asked e) ∧ (tell e notices).Within (2 * notices.length) := by
  induction notices with
  | nil => exact ⟨.done _, .done 0 _⟩
  | cons notice rest ih =>
    refine ⟨(notify_asks e notice).1.bind fun _ => ih.1.bind fun _ => .done _, ?_⟩
    rw [List.length_cons, Nat.mul_succ, Nat.add_comm]
    exact (notify_asks e notice).2.bind fun r => ih.2.map fun rest => r :: rest

/-- What is asked is answered at once. -/
theorem fluent (S : Surroundings) (e : Enlistment) :
    Machine.Fluent interface (fun _ : Setting S => True) (Asked e) where
  keeps _ _ _ _ := trivial
  answers visit s r _ hr := by
    rcases cases_of_asked hr with ⟨call, rfl⟩ | rfl
    · exact ⟨_, _, _, rfl⟩
    · exact ⟨_, _, _, rfl⟩

/-- Whether an enlistment is settled. -/
def isSettled (e : Enlistment) (s : Setting S) : Bool := s.world.settled.get e.flag

/-- **The flag of an enlistment**: it is not set as long as no verdict has reached it; the
first one finds it so, and no other does. -/
def Marked (e : Enlistment) (trace : Trace S) (s : Setting S) : Prop :=
  verdicts e trace = [] ∧ isSettled e s = false ∨
    ∃ i later, verdicts e trace = (i, true) :: later ∧ (∀ x ∈ later, x.2 = false) ∧
      isSettled e s = true

/-- What is asked keeps it so. -/
theorem Marked.serve {trace : Trace S} {s : Setting S} (h : Marked e trace s) (i : Nat)
    (visit : Visit) {r : Request} (hr : Asked e r) :
    Marked e (trace ++ [.of i visit s r]) (Server.serve (I := interface) visit s r).state := by
  unfold Marked
  rw [verdicts, filterMap_concat, ← verdicts]
  rcases cases_of_asked hr with ⟨call, rfl⟩ | rfl
  · have hnone : reached? e (.of (I := interface) i visit s (.outside call)) = none := rfl
    rw [hnone, Option.toList_none, List.append_nil]
    exact h
  · have hone : reached? e (.of (I := interface) i visit s (.under (.settle e.flag))) =
        some (i, !isSettled e s) := if_pos rfl
    have hset : isSettled e
        (Server.serve (I := interface) visit s (.under (.settle e.flag))).state = true :=
      Store.get_set_self _ _ _
    rw [hone, hset]
    refine .inr ?_
    rcases h with ⟨hnone, hunset⟩ | ⟨j, later, hfirst, hlate, hwas⟩
    · exact ⟨i, [], by rw [hnone, hunset]; rfl, nofun, rfl⟩
    · refine ⟨j, later ++ [(i, false)], by rw [hfirst, hwas]; rfl, ?_, rfl⟩
      exact List.forall_mem_append.mpr ⟨hlate, by simp⟩

/-- **The flag is kept in every run** in which nothing else is asked. -/
theorem marked_run {γ : Type} {m : Machine interface (Setting S) γ} (hstart : Marked e [] m.shared)
    (schedule : List (Machine.Move interface γ))
    (hasked : ∀ ev ∈ (m.run schedule).trace, Asked e ev.request) :
    Marked e (m.run schedule).trace (m.run schedule).machine.shared := by
  revert hasked
  refine Machine.run_induction (P := fun h : History interface (Setting S) γ =>
    (∀ ev ∈ h.trace, Asked e ev.request) → Marked e h.trace h.machine.shared)
    (fun _ => hstart) ?_ schedule
  intro schedule move ih hasked
  rcases (m.run schedule).step_cases move with
    ⟨htrace, hshared, -⟩ | ⟨i, visit, r, next, -, htrace, hshared, -⟩
  · rw [htrace] at hasked ⊢
    rw [hshared]
    exact ih hasked
  · rw [htrace, List.forall_mem_append] at hasked
    rw [htrace, hshared]
    exact (ih hasked.1).serve i visit (hasked.2 _ (List.mem_singleton_self _))

/-! ## Every run -/

/-- The enlistment is not settled yet; the other objects are as they may be. -/
def unsettled (e : Enlistment) (w : World) : Setting S :=
  ⟨{ w with settled := w.settled.set e.flag false }, 0⟩

/-- A run in which threads give notices to an enlistment that is not settled at first. -/
def telling (S : Surroundings) (e : Enlistment) (w : World) (callers : List (List Notice))
    (schedule : List (Machine.Move interface (List (Result Unit)))) :
    History interface (Setting S) (List (Result Unit)) :=
  (Machine.start (unsettled e w) (callers.map (tell e))).run schedule

/-- **What the notices of thread `i` have returned**: the first of what is expected so far,
and all of it once the thread has ended. -/
structure Returned (e : Enlistment) (h : History interface (Setting S) (List (Result Unit)))
    (i : Nat) (notices : List Notice) (expected : List (Result Unit)) : Prop where
  soFar : ∃ results, InTurn e.notify (Heeds e) notices (eventsOf i h.trace) results ∧
    results <+: expected
  ended : ∀ all, h.machine.result? i = some all → all = expected

/-- **Where an enlistment stands** at a point of a run. -/
inductive Stands (e : Enlistment) (callers : List (List Notice))
    (h : History interface (Setting S) (List (Result Unit))) : Prop
  /-- No verdict has reached it. -/
  | untouched : verdicts e h.trace = [] → isSettled e h.machine.shared = false →
    calls h.trace = [] →
    (∀ i notices, callers[i]? = some notices → Returned e h i notices (allOk notices)) →
    Stands e callers h
  /-- The first verdict that has reached it is about to call the channel. -/
  | settling {i : Nat} {later : List (Nat × Bool)} {notices : List Notice}
    {call : Channel.Call} : verdicts e h.trace = (i, true) :: later →
    isSettled e h.machine.shared = true → callers[i]? = some notices →
    notices.findSome? e.call? = some call → calls h.trace = [] →
    h.machine.result? i = none →
    (∀ j notices, callers[j]? = some notices → Returned e h j notices (allOk notices)) →
    Stands e callers h
  /-- The first verdict has made its call, which is the only one, and returns the answer. -/
  | settled {i : Nat} {later : List (Nat × Bool)} {notices : List Notice}
    {call : Channel.Call} {answer : Result Unit} : verdicts e h.trace = (i, true) :: later →
    isSettled e h.machine.shared = true → callers[i]? = some notices →
    notices.findSome? e.call? = some call → calls h.trace = [⟨e.channel, call, answer⟩] →
    Returned e h i notices (replies e answer notices) →
    (∀ j notices, j ≠ i → callers[j]? = some notices →
      Returned e h j notices (allOk notices)) →
    Stands e callers h

section Readings

variable {trace : Trace S} {i : Nat}

theorem thread_of_reached? {ev : Event interface (Setting S)} {x : Nat × Bool}
    (h : reached? e ev = some x) : x.1 = ev.thread := by
  unfold reached? at h
  split at h
  · split at h
    · rw [← Option.some.inj h]
    · cases h
  · cases h

/-- The verdicts of a thread. -/
theorem verdicts_eventsOf (e : Enlistment) (i : Nat) (trace : Trace S) :
    verdicts e (eventsOf i trace) = (verdicts e trace).filter (·.1 = i) := by
  rw [verdicts, verdicts, eventsOf, List.filterMap_filter, List.filter_filterMap]
  refine List.filterMap_congr fun ev _ => ?_
  cases hreached : reached? e ev with
  | none => simp
  | some x => simp [Option.filter, thread_of_reached? hreached]

/-- Who sends nothing has no part in what is sent. -/
theorem calls_eq_of_others
    (h : ∀ ev ∈ trace, ev.thread ≠ i → calls (eventsOf ev.thread trace) = []) :
    calls trace = calls (eventsOf i trace) :=
  filterMap_eq_of_others fun ev hev hi => List.filterMap_eq_nil_iff.mp (h ev hev hi) ev
    (List.mem_filter.mpr ⟨hev, decide_eq_true rfl⟩)

end Readings

section Run

variable (S : Surroundings) (e : Enlistment) (w : World) {callers : List (List Notice)}
  (schedule : List (Machine.Move interface (List (Result Unit)))) {i : Nat} {notices : List Notice}

theorem programs_telling (hi : callers[i]? = some notices) :
    (Machine.start (unsettled e w : Setting S) (callers.map (tell e))).programs[i]? =
      some (tell e notices) := by
  simp [Machine.programs_start, hi]

/-- The events of a thread are those of its notices. -/
theorem turns_of_caller (hi : callers[i]? = some notices) :
    ∃ results, InTurn e.notify (Heeds e) notices
        (eventsOf i (telling S e w callers schedule).trace) results ∧
      ∀ all, (telling S e w callers schedule).machine.result? i = some all →
        all = results ∧ results.length = notices.length :=
  Machine.inTurn schedule (programs_telling S e w hi) fun _ _ _ _ => notify_heeds

/-- Every event is of a thread that gives notices. -/
theorem exists_caller {ev : Event interface (Setting S)}
    (h : ev ∈ (telling S e w callers schedule).trace) :
    ∃ notices, callers[ev.thread]? = some notices := by
  have hlt := Machine.thread_lt h
  rw [Machine.programs_start, List.length_map] at hlt
  exact ⟨_, List.getElem?_eq_getElem hlt⟩

theorem asked_of_mem {ev : Event interface (Setting S)}
    (h : ev ∈ (telling S e w callers schedule).trace) : Asked e ev.request := by
  obtain ⟨notices, hi⟩ := exists_caller S e w schedule h
  obtain ⟨q, -, hwalk⟩ := Machine.walk schedule (programs_telling S e w hi)
  exact hwalk.allowed (Request.ne_runs_of fun _ _ hr => hr) (tell_asks e notices).1 ev
    (List.mem_filter.mpr ⟨h, decide_eq_true rfl⟩)

theorem marked_telling (callers : List (List Notice)) :
    Marked e (telling S e w callers schedule).trace
      (telling S e w callers schedule).machine.shared := by
  have hstart : Marked e [] (unsettled e w : Setting S) := .inl ⟨rfl, Store.get_set_self _ _ _⟩
  exact marked_run hstart schedule fun _ h => asked_of_mem S e w schedule h

variable {S e w schedule} {h : History interface (Setting S) (List (Result Unit))}

/-- A thread none of whose verdicts was the first. -/
theorem returned_of_late {results : List (Result Unit)}
    (hturns : InTurn e.notify (Heeds e) notices (eventsOf i h.trace) results)
    (hend : ∀ all, h.machine.result? i = some all →
      all = results ∧ results.length = notices.length)
    (hlate : ∀ x ∈ verdicts e (eventsOf i h.trace), x.2 = false) :
    calls (eventsOf i h.trace) = [] ∧ Returned e h i notices (allOk notices) := by
  obtain ⟨hcalls, hresults⟩ := lost_of_turns hturns hlate
  refine ⟨hcalls, ⟨results, hturns, hresults⟩, fun all hall => ?_⟩
  obtain ⟨rfl, hlength⟩ := hend all hall
  exact hresults.eq_of_length (by rw [hlength, allOk, List.length_map])

/-- **At every point of every run** one of the three is the case. -/
theorem stands (S : Surroundings) (e : Enlistment) (w : World) (callers : List (List Notice))
    (schedule : List (Machine.Move interface (List (Result Unit)))) :
    Stands e callers (telling S e w callers schedule) := by
  have hmarked := marked_telling S e w schedule callers
  have hturns (i notices) (hi : callers[i]? = some notices) :=
    turns_of_caller S e w schedule hi
  have hcaller (ev) (hev : ev ∈ (telling S e w callers schedule).trace) :=
    exists_caller S e w schedule hev
  generalize telling S e w callers schedule = h at hmarked hturns hcaller ⊢
  rcases hmarked with ⟨hnone, hunset⟩ | ⟨i, later, hfirst, hlate, hset⟩
  · have hlost (i notices) (hi : callers[i]? = some notices) :
        calls (eventsOf i h.trace) = [] ∧ Returned e h i notices (allOk notices) := by
      obtain ⟨results, hturn, hend⟩ := hturns i notices hi
      refine returned_of_late hturn hend ?_
      rw [verdicts_eventsOf, hnone]
      nofun
    refine .untouched hnone hunset ?_ fun i notices hi => (hlost i notices hi).2
    refine List.filterMap_eq_nil_iff.mpr fun ev hev => ?_
    obtain ⟨notices, hi⟩ := hcaller ev hev
    exact List.filterMap_eq_nil_iff.mp (hlost _ notices hi).1 ev
      (List.mem_filter.mpr ⟨hev, decide_eq_true rfl⟩)
  · -- the others come too late, so what is sent is sent by the thread of the first
    have hlost (j notices) (hne : j ≠ i) (hj : callers[j]? = some notices) :
        calls (eventsOf j h.trace) = [] ∧ Returned e h j notices (allOk notices) := by
      obtain ⟨results, hturn, hend⟩ := hturns j notices hj
      refine returned_of_late hturn hend fun x hx => ?_
      rw [verdicts_eventsOf, hfirst] at hx
      obtain ⟨hx, hthread⟩ := List.mem_filter.mp hx
      rcases List.mem_cons.mp hx with rfl | hx
      · exact absurd (of_decide_eq_true hthread).symm hne
      · exact hlate x hx
    have hcalls : calls h.trace = calls (eventsOf i h.trace) := by
      refine calls_eq_of_others fun ev hev hne => ?_
      obtain ⟨notices, hj⟩ := hcaller ev hev
      exact (hlost _ notices hne hj).1
    obtain ⟨notices, hi⟩ : ∃ notices, callers[i]? = some notices := by
      obtain ⟨ev, hev, hreached⟩ := List.mem_filterMap.mp (hfirst ▸ List.mem_cons_self)
      obtain ⟨notices, hi⟩ := hcaller ev hev
      have hthread : i = ev.thread := thread_of_reached? hreached
      exact ⟨notices, hthread ▸ hi⟩
    have hown : verdicts e (eventsOf i h.trace) = (i, true) :: later.filter (·.1 = i) := by
      rw [verdicts_eventsOf, hfirst]
      exact List.filter_cons_of_pos (decide_eq_true rfl)
    obtain ⟨results, hturn, hend⟩ := hturns i notices hi
    obtain ⟨call, hcall, ⟨hsilent, hresults, hlength⟩ | ⟨answer, hsent, hresults⟩⟩ :=
      won_of_turns hturn hown fun x hx => hlate x (List.mem_of_mem_filter hx)
    · have hunder : h.machine.result? i = none := by
        refine Option.eq_none_iff_forall_ne_some.mpr fun all hall => ?_
        exact absurd (hend all hall).2 (Nat.ne_of_lt hlength)
      refine .settling hfirst hset hi hcall (hcalls.trans hsilent) hunder fun j notices' hj => ?_
      by_cases hji : j = i
      · subst hji
        obtain rfl := Option.some.inj (hi.symm.trans hj)
        exact ⟨⟨results, hturn, hresults⟩, fun all hall => by rw [hunder] at hall; cases hall⟩
      · exact (hlost j notices' hji hj).2
    · refine .settled hfirst hset hi hcall (hcalls.trans hsent)
        ⟨⟨results, hturn, hresults⟩, fun all hall => ?_⟩
        fun j notices' hne hj => (hlost j notices' hne hj).2
      obtain ⟨rfl, hlength⟩ := hend all hall
      exact hresults.eq_of_length (by rw [hlength, length_replies])

end Run

/-- **An enlistment settles at most once, by its first verdict.** -/
structure SettlesByFirst (S : Surroundings) (e : Enlistment) : Prop where
  /-- At every point, whoever gives which notices in whatever interleaving. -/
  stands (w : World) (callers : List (List Notice))
    (schedule : List (Machine.Move interface (List (Result Unit)))) :
    Stands e callers (telling S e w callers schedule)
  /-- Without a verdict nothing is sent, and it is not settled. -/
  withoutVerdict (w : World) {callers : List (List Notice)}
    (schedule : List (Machine.Move interface (List (Result Unit)))) :
    (∀ notices ∈ callers, notices.findSome? e.call? = none) →
    calls (telling S e w callers schedule).trace = [] ∧
      isSettled e (telling S e w callers schedule).machine.shared = false
  /-- With one there is exactly one call, once all have returned. -/
  withVerdict (w : World) {callers : List (List Notice)}
    (schedule : List (Machine.Move interface (List (Result Unit)))) :
    (∃ notices ∈ callers, (notices.findSome? e.call?).isSome) →
    (∀ i < callers.length, ((telling S e w callers schedule).machine.result? i).isSome) →
    ∃ call answer, calls (telling S e w callers schedule).trace = [⟨e.channel, call, answer⟩] ∧
      isSettled e (telling S e w callers schedule).machine.shared = true
  /-- All of them return: a notice takes two moves of its thread at most, whatever the others
  do. -/
  returns (w : World) {callers : List (List Notice)} {i : Nat} {notices : List Notice}
    (schedule : List (Machine.Move interface (List (Result Unit)))) :
    callers[i]? = some notices →
    2 * notices.length ≤ schedule.countP (Machine.Move.advances i) →
    ((telling S e w callers schedule).machine.result? i).isSome

theorem settles_by_first (S : Surroundings) (e : Enlistment) : SettlesByFirst S e where
  stands := stands S e
  withoutVerdict w callers schedule hnone := by
    have hverdict {i : Nat} {notices : List Notice} {call : Channel.Call}
        (hi : callers[i]? = some notices) (hcall : notices.findSome? e.call? = some call) :
        False := by
      rw [hnone notices (List.mem_of_getElem? hi)] at hcall
      cases hcall
    cases stands S e w callers schedule with
    | untouched _ hunset hcalls _ => exact ⟨hcalls, hunset⟩
    | settling _ _ hi hcall => exact (hverdict hi hcall).elim
    | settled _ _ hi hcall => exact (hverdict hi hcall).elim
  withVerdict w callers schedule := by
    rintro ⟨notices, hmem, hverdict⟩ hreturned
    cases stands S e w callers schedule with
    | untouched hnone =>
      obtain ⟨i, hi⟩ := List.getElem?_of_mem hmem
      obtain ⟨hlt, -⟩ := List.getElem?_eq_some_iff.mp hi
      obtain ⟨all, hall⟩ := Option.isSome_iff_exists.mp (hreturned i hlt)
      obtain ⟨results, hturns, hend⟩ := turns_of_caller S e w schedule hi
      have hreached := reached_of_turns hturns (hend all hall).2 hverdict
      rw [verdicts_eventsOf, hnone] at hreached
      exact absurd rfl hreached
    | settling _ _ hi _ _ hunder =>
      obtain ⟨hlt, -⟩ := List.getElem?_eq_some_iff.mp hi
      have hended := hreturned _ hlt
      rw [hunder] at hended
      cases hended
    | settled _ hset _ _ hcalls => exact ⟨_, _, hcalls, hset⟩
  returns w callers i notices schedule hi hmoves := by
    have hthread : (Machine.start (unsettled e w : Setting S) (callers.map (tell e))).threads[i]? =
        some (.running (tell e notices)) := by
      simp [Machine.start, hi]
    exact Machine.Strides.result?_isSome (fluent S e)
      ⟨trivial, .running (tell e notices), hthread, rfl, tell_asks e notices⟩ hmoves

/-- A rollback that fails is not made up for, neither by a second one nor by the commit of
another thread, which comes between its look at the flag and its call. -/
example :
    let failing : Surroundings :=
      { (default : Surroundings) with
        answer := fun _ call => match call with
          | .channel _ _ => .error .queueClosed
          | .log _ _ => () }
    let h := telling failing ⟨0, 7, 3⟩ {} [[.prepare, .commit], [.rollback, .rollback, .commit]]
      [.advance .longest 1, .advance .longest 0, .advance .longest 1, .advance .longest 1,
        .advance .longest 1]
    calls h.trace = [⟨3, .reject 7 true, .error .queueClosed⟩] ∧
      h.machine.result? 0 = some [.ok (), .ok ()] ∧
      h.machine.result? 1 = some [.error .queueClosed, .ok (), .ok ()] :=
  ⟨rfl, rfl, rfl⟩

end MessageIntake.Verdict
