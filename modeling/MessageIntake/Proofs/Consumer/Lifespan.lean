import MessageIntake.Proofs.Consumer.Standing
import MessageIntake.Proofs.Machine.Account

/-!
# The life of a consumer

One thread reports to a consumer what the broker says, any number of
others cancel it, and channels take their time and may cancel it
themselves. The state of the consumer still only goes forward, the broker
is asked to cancel at most once, with the tag that it gave, and the queue
is closed at most once, by whoever has ended the consumer. `lives_once`
says so of every run.

What is read off the invariant at one point of a run is true of all of
them, because every beginning of a run is a run (`run_point`).
-/

namespace MessageIntake.Lifespan

open Client Lifecycle

variable {R : Reactions} {c : Consumer} {H : Hosts c}

/-- A program for a thread on the application's side. -/
structure Guest (c : Consumer) where
  program : Action (List (Result Unit))
  minds : Minds c program

/-- A thread that cancels the consumer. -/
def Guest.cancel (c : Consumer) : Guest c where
  program := c.cancel.bind fun result => .done [result]
  minds := .cancel fun _ => .done _

/-- A run of the callbacks of a new consumer, in the first thread, and of
whatever the application does with it, in the others. -/
def runConsumer (H : Hosts c) (w : World) (callbacks : List Callback) (guests : List (Guest c))
    (schedule : List (Machine.Move interface (List (Result Unit)))) :
    History interface (Scene H.toReactions) (List (Result Unit)) :=
  (Machine.start (.renewed c.lifecycle w)
    (dispatch c callbacks :: guests.map Guest.program)).run schedule

/-! ## At every point of a run -/

/-- Threads that owe nothing. -/
def roles (n : Nat) : List Role := (List.range n).map fun i => ⟨i, .nothing⟩

theorem getElem?_roles {n i : Nat} (h : i < n) : (roles n)[i]? = some ⟨i, .nothing⟩ := by
  rw [roles, List.getElem?_map, List.getElem?_range h]
  rfl

theorem owes_of_mem_roles {n : Nat} {g : Role} (h : g ∈ roles n) : g.owes = .nothing := by
  obtain ⟨i, -, rfl⟩ := List.mem_map.mp h
  rfl

section Runs

variable {w : World} {callbacks : List Callback} {guests : List (Guest c)}

variable (H w callbacks guests) in
/-- **Every run is conducted**, and a thread that has ended owes nothing. -/
theorem run_conducted (schedule : List (Machine.Move interface (List (Result Unit)))) :
    ∃ gs, Goes c (runConsumer H w callbacks guests schedule).trace
        (runConsumer H w callbacks guests schedule).machine.shared gs ∧
      Follow (conduct c) (fun _ _ g => g.owes = .nothing)
        (runConsumer H w callbacks guests schedule).machine.programs gs := by
  have hrequests : (roles (guests.length + 1)).filterMap Role.request? = [] :=
    List.filterMap_eq_nil_iff.mpr fun g hg => by simp [Role.request?, owes_of_mem_roles hg]
  have hclosings : (roles (guests.length + 1)).filterMap Role.closing? = [] :=
    List.filterMap_eq_nil_iff.mpr fun g hg => by simp [Role.closing?, owes_of_mem_roles hg]
  have hstart : Goes c [] (.renewed c.lifecycle w : Scene H.toReactions)
      (roles (guests.length + 1)) := by
    refine ⟨⟨?_, fun i g hg => ?_, ?_, ?_, ?_, fun e he => absurd he List.not_mem_nil⟩,
      fun e he => absurd he List.not_mem_nil⟩
    · rw [Scene.lifecycle_renewed]
      exact .new
    · have hi : i < guests.length + 1 := by
        simpa [roles] using (List.getElem?_eq_some_iff.mp hg).1
      rw [getElem?_roles hi, Option.some_inj] at hg
      rw [← hg]
    · intro hlost
      rw [Scene.lifecycle_renewed] at hlost
      cases hlost
    · rw [Balanced, hrequests]
      rfl
    · rw [Balanced, hclosings]
      rfl
  have hfollow : Follow (conduct c) (fun _ _ g => g.owes = .nothing)
      (dispatch c callbacks :: guests.map Guest.program) (roles (guests.length + 1)) := by
    refine ⟨by simp [roles], fun {i p} hp => ?_⟩
    have hi : i < guests.length + 1 := by simpa using (List.getElem?_eq_some_iff.mp hp).1
    refine ⟨_, getElem?_roles hi, ?_⟩
    cases i with
    | zero =>
      rw [List.getElem?_cons_zero, Option.some_inj] at hp
      subst hp
      exact (dispatch_follows rfl rfl callbacks).mono fun _ g hg => hg ▸ rfl
    | succ i =>
      rw [List.getElem?_cons_succ, List.getElem?_map, Option.map_eq_some_iff] at hp
      obtain ⟨guest, -, rfl⟩ := hp
      exact (guest.minds.follows rfl).mono fun _ g hg => hg ▸ rfl
  exact conduct_upholds.run hstart hfollow (fun _ => trivial) schedule

/-- An event happens where the run is conducted, and leaves it so. -/
theorem run_point {schedule : List (Machine.Move interface (List (Result Unit)))}
    {before later : List (Event interface (Scene H.toReactions))}
    {e : Event interface (Scene H.toReactions)}
    (h : (runConsumer H w callbacks guests schedule).trace = before ++ e :: later) :
    (∃ gs, Conducted c before e.before gs) ∧ ∃ gs, Conducted c (before ++ [e]) e.after gs := by
  obtain ⟨earlier, move, rest, -, hbefore, ⟨i, visit, r, he⟩, htrace, hshared⟩ :=
    Machine.run_split schedule h
  constructor
  · obtain ⟨gs, hgoes, -⟩ := run_conducted H w callbacks guests earlier
    rw [runConsumer, hbefore] at hgoes
    rw [he]
    exact ⟨gs, hgoes.1⟩
  · obtain ⟨gs, hgoes, -⟩ := run_conducted H w callbacks guests (earlier ++ [move])
    rw [runConsumer, htrace, hshared] at hgoes
    exact ⟨gs, hgoes.1⟩

end Runs

/-! ## What single events say -/

section Events

variable {m : Machine interface (Scene R) (List (Result Unit))}
variable {schedule : List (Machine.Move interface (List (Result Unit)))}
variable {e : Event interface (Scene R)}

/-- A section is answered by the lifecycle that it finds. -/
theorem step_of_mem (he : e ∈ (m.run schedule).trace) {step : Step} (h : step? c e = some step) :
    ∃ part, e.request = Request.under (.lifecycle c.lifecycle part) ∧
      step = ⟨e.thread, part, ((e.before.lifecycle c.lifecycle).run part).2⟩ := by
  obtain ⟨visit, hevent⟩ := Machine.exists_of_mem_trace he
  by_cases hr : ∃ part, e.request = Request.under (.lifecycle c.lifecycle part)
  · obtain ⟨part, hpart⟩ := hr
    rw [hevent, hpart, step?_of_section] at h
    exact ⟨part, hpart, (Option.some_inj.mp h).symm⟩
  · rw [hevent, step?_eq_none fun part hpart => hr ⟨part, hpart⟩] at h
    cases h

/-- Whoever is given the tag finds the consumer consuming. -/
theorem granted_of_mem (he : e ∈ (m.run schedule).trace) {i : Nat} {tag : String}
    (h : granted? c e = some (i, tag)) :
    e.thread = i ∧ e.request = Request.under (.lifecycle c.lifecycle .requestCancel) ∧
      (e.before.lifecycle c.lifecycle).state = .consuming ∧
      (e.before.lifecycle c.lifecycle).cancelRequested = false := by
  obtain ⟨step, hstep, hgranted⟩ := Option.bind_eq_some_iff.mp h
  obtain ⟨part, hrequest, rfl⟩ := step_of_mem he hstep
  obtain ⟨hthread, rfl, hfound⟩ := Step.granted?_run hgranted
  exact ⟨hthread, hrequest, hfound⟩

/-- What a section makes of the lifecycle. -/
theorem after_of_lifecycle (he : e ∈ (m.run schedule).trace) {id : LifecycleId}
    {part : Lifecycle.Section} (hpart : e.request = Request.under (.lifecycle id part)) :
    e.after.lifecycle id = ((e.before.lifecycle id).run part).1 := by
  obtain ⟨visit, hevent⟩ := Machine.exists_of_mem_trace he
  rw [hevent, hpart]
  exact lifecycle_serve visit _ id part

/-- A start that is refused changes nothing. -/
theorem refused_of_mem {i : Nat} {s s' : Scene R} {id : LifecycleId} {tag : String} {err : Error}
    (he : (⟨i, s, Request.under (.lifecycle id (.start tag)), some (.error err), s'⟩ :
      Event interface (Scene R)) ∈ (m.run schedule).trace) :
    s'.turn = s.turn ∧ s'.world.queues = s.world.queues ∧
      s'.world.transactions = s.world.transactions ∧ s'.world.settled = s.world.settled ∧
      s'.world.nextFlag = s.world.nextFlag ∧ ∀ id, s'.lifecycle id = s.lifecycle id := by
  obtain ⟨visit, hevent⟩ := Machine.exists_of_mem_trace he
  rw [Event.of, serve_lifecycle] at hevent
  simp only [Event.mk.injEq, heq_eq_eq, true_and] at hevent
  obtain ⟨hanswer, rfl⟩ := hevent
  refine ⟨rfl, rfl, rfl, rfl, rfl, fun id' => ?_⟩
  have hsame : ((s.lifecycle id).run (.start tag)).1 = s.lifecycle id := by
    by_cases hstate : (s.lifecycle id).state = .created
    · simp [Served.answer?, run, hstate] at hanswer
    · simp only [run, hstate, if_false]
  show (s.world.lifecycles.set id ((s.lifecycle id).run (.start tag)).1).get id' = _
  rw [hsame, Store.get_set]
  split
  · rename_i hid
    rw [hid]
  · rfl

theorem step?_of_asked? {x : Nat × String} (h : asked? c e = some x) : step? c e = none := by
  unfold asked? at h
  split at h
  · rfl
  · cases h

theorem step?_of_closed? {i : Nat} (h : closed? c e = some i) : step? c e = none := by
  unfold closed? at h
  split at h
  · rfl
  · cases h

/-- What happens only goes on. -/
theorem onward_run (h : ∀ e ∈ (m.run schedule).trace,
      Onward (e.before.lifecycle c.lifecycle) (e.after.lifecycle c.lifecycle)) :
    Onward (m.shared.lifecycle c.lifecycle)
      ((m.run schedule).machine.shared.lifecycle c.lifecycle) := by
  revert h
  refine Machine.run_induction (P := fun h : History interface (Scene R) (List (Result Unit)) =>
    (∀ e ∈ h.trace, Onward (e.before.lifecycle c.lifecycle) (e.after.lifecycle c.lifecycle)) →
      Onward (m.shared.lifecycle c.lifecycle) (h.machine.shared.lifecycle c.lifecycle))
    (fun _ => .refl _) ?_ schedule
  intro schedule move ih
  generalize m.run schedule = h at ih ⊢
  rcases h.step_cases move with ⟨htrace, hshared, -⟩ | ⟨i, visit, r, next, -, htrace, hshared, -⟩
  · rw [htrace, hshared]
    exact ih
  · rw [htrace, hshared]
    intro honward
    rw [List.forall_mem_append] at honward
    exact (ih honward.1).trans (honward.2 _ List.mem_cons_self)

/-- From every event on, too. -/
theorem onward_of_mem (h : ∀ e ∈ (m.run schedule).trace,
      Onward (e.before.lifecycle c.lifecycle) (e.after.lifecycle c.lifecycle))
    (he : e ∈ (m.run schedule).trace) :
    Onward (e.after.lifecycle c.lifecycle)
      ((m.run schedule).machine.shared.lifecycle c.lifecycle) := by
  obtain ⟨before, later, htrace⟩ := List.append_of_mem he
  obtain ⟨m', rest, hm, hlater, hend⟩ := Machine.later_eq_run schedule htrace
  have honward : ∀ e' ∈ (m'.run rest).trace,
      Onward (e'.before.lifecycle c.lifecycle) (e'.after.lifecycle c.lifecycle) := by
    intro e' he'
    refine h e' ?_
    rw [htrace]
    exact List.mem_append_right _ (List.mem_cons_of_mem _ (hlater ▸ he'))
  have hafter := onward_run honward
  rwa [hm, hend] at hafter

end Events

/-! ## The thread that asks, and the thread that closes -/

section Conducted

variable {trace : List (Event interface (Scene R))} {gs gs' : List Role}
variable {e : Event interface (Scene R)}

theorem Conducted.length_asked_le {s : Scene R} (h : Conducted c trace s gs) :
    (trace.filterMap (asked? c)).length ≤ 1 :=
  Nat.le_trans (Multiset.card_le_card h.granted_of_asked) h.length_granted_le

theorem Conducted.length_closed_le {s : Scene R} (h : Conducted c trace s gs) :
    (trace.filterMap (closed? c)).length ≤ 1 :=
  Nat.le_trans (Multiset.card_le_card h.ended_of_closed) h.length_ended_le

/-- **Whoever asks the broker was given the tag**, and this is the tag of
the start. -/
theorem Conducted.asker (h : Conducted c trace e.before gs)
    (hafter : Conducted c (trace ++ [e]) e.after gs') {i : Nat} {tag : String}
    (hasked : asked? c e = some (i, tag)) :
    trace.filterMap (started? c) = [tag] ∧ (i, tag) ∈ trace.filterMap (granted? c) := by
  have hnone : granted? c e = none := by rw [granted?, step?_of_asked? hasked]; rfl
  have hmem : (i, tag) ∈ trace.filterMap (granted? c) :=
    mem_of_concat_le hafter.granted_of_asked hasked hnone
  have htag : tag ∈ (trace.filterMap (granted? c)).map Prod.snd :=
    List.mem_map.mpr ⟨(i, tag), hmem, rfl⟩
  rw [h.granted_eq] at htag
  split at htag
  · rw [Option.mem_toList] at htag
    refine ⟨?_, hmem⟩
    rw [h.started_eq, htag]
    rfl
  · cases htag

/-- **Whoever closes the queue has ended the consumer.** -/
theorem Conducted.closer (h : Conducted c trace e.before gs)
    (hafter : Conducted c (trace ++ [e]) e.after gs') {i : Nat}
    (hclosed : closed? c e = some i) :
    trace.filterMap (ended? c) = [i] ∧ (e.before.lifecycle c.lifecycle).state = .canceled := by
  have hnone : ended? c e = none := by rw [ended?, step?_of_closed? hclosed]; rfl
  have hmem : i ∈ trace.filterMap (ended? c) :=
    mem_of_concat_le hafter.ended_of_closed hclosed hnone
  have hlength := h.length_ended
  by_cases hstate : (e.before.lifecycle c.lifecycle).state = .canceled
  · rw [if_pos hstate] at hlength
    obtain ⟨j, hj⟩ := List.length_eq_one_iff.mp hlength
    rw [hj, List.mem_singleton] at hmem
    exact ⟨by rw [hj, hmem], hstate⟩
  · rw [if_neg hstate] at hlength
    have hpos := List.length_pos_of_mem hmem
    omega

end Conducted

/-! ## The thread that cancels -/

/-- A cancellation ends the consumer. -/
theorem cancel_path {log : List (Exchange interface)} {r : Result Unit}
    (h : c.cancel.Path log r) :
    ∃ x ∈ log, x.request = Request.under (.lifecycle c.lifecycle .cancel) := by
  have hend : ∀ {log u}, c.onCancel.Path log u →
      ∃ x ∈ log, x.request = Request.under (.lifecycle c.lifecycle .cancel) := by
    intro log u h
    obtain ⟨a, later, rfl, -⟩ := Program.Path.of_request_bind h
    exact ⟨_, List.mem_cons_self, rfl⟩
  obtain ⟨tag?, rest, rfl, hrest⟩ := Program.Path.of_request_bind h
  have hthen : ∀ {log answer}, (c.onCancel.bind fun _ => .done answer).Path log r →
      ∃ x ∈ log, x.request = Request.under (.lifecycle c.lifecycle .cancel) := by
    intro log answer h
    obtain ⟨u, ending, last, rfl, hending, -⟩ := Program.Path.of_bind h
    obtain ⟨x, hx, hrequest⟩ := hend hending
    exact ⟨x, List.mem_append_left _ hx, hrequest⟩
  cases tag? with
  | none =>
    obtain ⟨x, hx, hrequest⟩ := hthen hrest
    exact ⟨x, List.mem_cons_of_mem _ hx, hrequest⟩
  | some tag =>
    obtain ⟨answer, more, rfl, hmore⟩ := Program.Path.of_request_bind hrest
    obtain ⟨x, hx, hrequest⟩ := hthen hmore
    exact ⟨x, List.mem_cons_of_mem _ (List.mem_cons_of_mem _ hx), hrequest⟩

/-- A thread that cancels and has returned has gone through the section
that ends the consumer. -/
theorem exists_cancel {w : World} {callbacks : List Callback} {guests : List (Guest c)}
    {schedule : List (Machine.Move interface (List (Result Unit)))} {i : Nat}
    (hi : guests[i]? = some (.cancel c))
    (hended : ((runConsumer H w callbacks guests schedule).machine.result? (i + 1)).isSome) :
    ∃ e ∈ (runConsumer H w callbacks guests schedule).trace,
      e.request = Request.under (.lifecycle c.lifecycle .cancel) := by
  obtain ⟨r, hr⟩ := Option.isSome_iff_exists.mp hended
  obtain ⟨log, haccount⟩ := Machine.account (i := i + 1)
    (p := c.cancel.bind fun result => .done [result]) schedule (by simp [hi, Guest.cancel]) hr
  obtain ⟨a, events, rest, log₁, log₂, hevents, -, hcancel, -⟩ := haccount.of_bind
  obtain ⟨x, hx, hrequest⟩ := cancel_path hcancel.path
  obtain ⟨e, he, hpart⟩ := hcancel.exists_event x hx
  have hown : e ∈ events ++ rest := List.mem_append_left _ he
  rw [← hevents] at hown
  exact ⟨e, (List.mem_filter.mp hown).1, hpart.trans hrequest⟩

/-! ## Once -/

/-- **What it means that the consumer `c` lives once** in a run. -/
structure LivesOnce (c : Consumer) (guests : List (Guest c))
    (h : History interface (Scene R) (List (Result Unit))) : Prop where
  /-- The state does not go back and is final once it is canceled, and a tag
  or a reason that is recorded stays: by every event, and from every event
  on. -/
  onward : ∀ e ∈ h.trace, Onward (e.before.lifecycle c.lifecycle) (e.after.lifecycle c.lifecycle) ∧
    Onward (e.after.lifecycle c.lifecycle) (h.machine.shared.lifecycle c.lifecycle)
  /-- A consumer that consumes has a tag. -/
  consuming : (h.machine.shared.lifecycle c.lifecycle).state = .consuming →
    (h.machine.shared.lifecycle c.lifecycle).consumerTag.isSome
  /-- The recorded tag is that of the start that was in order, and there is
  none if there was no such start; so at most one is. -/
  started : h.trace.filterMap (started? c) =
    (h.machine.shared.lifecycle c.lifecycle).consumerTag.toList
  /-- A start that is refused changes nothing, and its callback does nothing
  more. -/
  refused : ∀ i s tag err s', (⟨i, s, Request.under (.lifecycle c.lifecycle (.start tag)),
      some (.error err), s'⟩ : Event interface (Scene R)) ∈ h.trace →
    s'.turn = s.turn ∧ s'.world.queues = s.world.queues ∧
      s'.world.transactions = s.world.transactions ∧ s'.world.settled = s.world.settled ∧
      s'.world.nextFlag = s.world.nextFlag ∧ ∀ id, s'.lifecycle id = s.lifecycle id
  returns_refusal : ∀ tag, ∃ next : Result Unit → Action (Result Unit),
    c.consumeOk tag = .ask (.under (.lifecycle c.lifecycle (.start tag))) next ∧
      ∀ err, next (.error err) = .done (.error err)
  /-- The recorded reason is that of the loss that counts. -/
  lost : h.trace.filterMap (lost? c) =
    (h.machine.shared.lifecycle c.lifecycle).shutdownReason.toList
  /-- The broker is asked to cancel at most once. -/
  askedOnce : (h.trace.filterMap (asked? c)).length ≤ 1
  /-- It is asked with the tag of the start, by a cancellation that has found
  the consumer consuming. -/
  asker : ∀ before e later i tag, h.trace = before ++ e :: later → asked? c e = some (i, tag) →
    before.filterMap (started? c) = [tag] ∧
      ∃ e' ∈ before, e'.thread = i ∧
        e'.request = Request.under (.lifecycle c.lifecycle .requestCancel) ∧
        (e'.before.lifecycle c.lifecycle).state = .consuming ∧
        (e'.before.lifecycle c.lifecycle).cancelRequested = false
  /-- The consumer is ended once if it is canceled, and not otherwise. -/
  ended : (h.trace.filterMap (ended? c)).length =
    if (h.machine.shared.lifecycle c.lifecycle).state = .canceled then 1 else 0
  /-- Its queue is closed at most once, by the thread that has ended it. -/
  closedOnce : (h.trace.filterMap (closed? c)).length ≤ 1
  closer : ∀ before e later i, h.trace = before ++ e :: later → closed? c e = some i →
    before.filterMap (ended? c) = [i] ∧ (e.before.lifecycle c.lifecycle).state = .canceled
  /-- When this thread has returned, the queue is closed. -/
  closes : ∀ i ∈ h.trace.filterMap (ended? c), (h.machine.result? i).isSome →
    h.trace.filterMap (closed? c) = [i] ∧ (h.machine.shared.queue c.queue).isOpen = false
  /-- When a thread that cancels has returned, the consumer is canceled. -/
  canceled : ∀ i, guests[i]? = some (.cancel c) → (h.machine.result? (i + 1)).isSome →
    (h.machine.shared.lifecycle c.lifecycle).state = .canceled

/-- **A consumer lives once**, whatever the callbacks, the channels and the
other threads are. -/
theorem lives_once (H : Hosts c) (w : World) (callbacks : List Callback) (guests : List (Guest c))
    (schedule : List (Machine.Move interface (List (Result Unit)))) :
    LivesOnce c guests (runConsumer H w callbacks guests schedule) := by
  obtain ⟨gs, ⟨hconducted, honward⟩, hfollow⟩ := run_conducted H w callbacks guests schedule
  refine
    { onward := fun e he => ⟨honward e he, onward_of_mem honward he⟩
      consuming := hconducted.course.kept.consuming
      started := hconducted.started_eq
      refused := fun i s tag err s' he => refused_of_mem he
      returns_refusal := fun tag => ⟨_, rfl, fun _ => rfl⟩
      lost := hconducted.lost_eq
      askedOnce := hconducted.length_asked_le
      asker := ?_
      ended := hconducted.length_ended
      closedOnce := hconducted.length_closed_le
      closer := ?_
      closes := ?_
      canceled := ?_ }
  · intro before e later i tag htrace hasked
    obtain ⟨⟨gs₁, hbefore⟩, gs₂, hafter⟩ := run_point htrace
    obtain ⟨hstarted, hmem⟩ := hbefore.asker hafter hasked
    obtain ⟨e', he', hgranted⟩ := List.mem_filterMap.mp hmem
    exact ⟨hstarted, e', he', granted_of_mem (htrace ▸ List.mem_append_left _ he') hgranted⟩
  · intro before e later i htrace hclosed
    obtain ⟨⟨gs₁, hbefore⟩, gs₂, hafter⟩ := run_point htrace
    exact hbefore.closer hafter hclosed
  · intro i hi hended
    obtain ⟨r, hr⟩ := Option.isSome_iff_exists.mp hended
    obtain ⟨g, hg, howes⟩ := hfollow.result hr
    have hclosed := hconducted.closed_of_rests hi hg howes
    refine ⟨hclosed, ?_⟩
    have hmem : i ∈ (runConsumer H w callbacks guests schedule).trace.filterMap (closed? c) := by
      rw [hclosed]
      exact List.mem_singleton_self i
    obtain ⟨e, he, hsome⟩ := List.mem_filterMap.mp hmem
    exact hconducted.shut e he (by rw [hsome]; rfl)
  · intro i hi hended
    obtain ⟨e, he, hrequest⟩ := exists_cancel hi hended
    refine (onward_of_mem honward he).canceled ?_
    rw [after_of_lifecycle he hrequest]
    rfl

end MessageIntake.Lifespan
