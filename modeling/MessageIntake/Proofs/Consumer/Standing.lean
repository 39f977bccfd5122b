import MessageIntake.Proofs.Consumer.Conduct
import MessageIntake.Proofs.Consumer.Course
import MessageIntake.Proofs.Machine.Balance
import MessageIntake.Proofs.Queue.EndOfStream

/-!
# Where a consumer and its threads are

The lifecycle of a consumer records its own course (`Course`). What
happens outside its lock, the call on the channel and the closing of the
queue, is tied to it by books that balance: whoever was given the tag
holds it until the broker is asked, and whoever has ended the consumer
has yet to close the queue until it does. `Conducted` is this invariant,
and `conduct_upholds` says that the discipline upholds it, whatever the
channels and the participants do while they are called.
-/

namespace MessageIntake

open Client Lifecycle

namespace Role

/-- The tag that a thread was given and has not used yet. -/
def request? (g : Role) : Option (Nat × String) :=
  match g.owes with
  | .request tag => some (g.thread, tag)
  | _ => none

/-- The thread, if it has yet to close the queue. -/
def closing? (g : Role) : Option Nat :=
  match g.owes with
  | .closing => some g.thread
  | _ => none

/-- Who is given the tag holds it. -/
theorem request?_after {g : Role} {part : Lifecycle.Section} (h : g.Begins part)
    (a : part.Answer) :
    (Step.granted? ⟨g.thread, part, a⟩).toList ++ g.request?.toList =
      (g.after part a).request?.toList := by
  obtain ⟨thread, owes⟩ := g
  cases part with
  | start | look => rfl
  | requestCancel =>
    obtain rfl : owes = .nothing := h
    cases a <;> rfl
  | loseTransport reason =>
    obtain ⟨-, rfl : owes = .nothing⟩ := h
    cases a <;> rfl
  | cancel =>
    obtain ⟨state, tag⟩ := a
    by_cases hstate : state = .canceled <;> rcases h with rfl | rfl <;>
      simp [Step.granted?, after, request?, hstate]

/-- Who ends the consumer has yet to close the queue. -/
theorem closing?_after {g : Role} {part : Lifecycle.Section} (h : g.Begins part)
    (a : part.Answer) :
    (Step.ended? ⟨g.thread, part, a⟩).toList ++ g.closing?.toList =
      (g.after part a).closing?.toList := by
  obtain ⟨thread, owes⟩ := g
  cases part with
  | start | look => rfl
  | requestCancel =>
    obtain rfl : owes = .nothing := h
    cases a <;> rfl
  | loseTransport reason =>
    obtain ⟨-, rfl : owes = .nothing⟩ := h
    cases a <;> rfl
  | cancel =>
    obtain ⟨state, tag⟩ := a
    by_cases hstate : state = .canceled <;> rcases h with rfl | rfl <;>
      simp [Step.ended?, after, closing?, hstate]

end Role

namespace Lifespan

variable {R : Reactions} {c : Consumer} {α : Type}

/-! ## What is read off a run -/

/-- The section that an event does on the lifecycle of a consumer. -/
def step? (c : Consumer) : Event interface (Scene R) → Option Step
  | ⟨i, _, Request.under (.lifecycle id part), some a, _⟩ =>
    if id = c.lifecycle then some ⟨i, part, a⟩ else none
  | _ => none

/-- Who asks the broker to cancel on the channel of a consumer, and with
which tag. -/
def asked? (c : Consumer) : Event interface (Scene R) → Option (Nat × String)
  | ⟨i, _, Request.outside (.channel id (.cancel tag)), _, _⟩ =>
    if id = c.channel then some (i, tag) else none
  | _ => none

/-- Who closes the queue of a consumer. -/
def closed? (c : Consumer) : Event interface (Scene R) → Option Nat
  | ⟨i, _, Request.under (.queue id .close), _, _⟩ => if id = c.queue then some i else none
  | _ => none

/-- Who was given the tag to cancel with. -/
def granted? (c : Consumer) (e : Event interface (Scene R)) : Option (Nat × String) :=
  (step? c e).bind Step.granted?

/-- Who has ended the consumer. -/
def ended? (c : Consumer) (e : Event interface (Scene R)) : Option Nat :=
  (step? c e).bind Step.ended?

/-- The tag of a start that was in order. -/
def started? (c : Consumer) (e : Event interface (Scene R)) : Option String :=
  (step? c e).bind Step.started?

/-- The reason of a loss that counts. -/
def lost? (c : Consumer) (e : Event interface (Scene R)) : Option ShutdownReason :=
  (step? c e).bind Step.lost?

/-- A section of the lifecycle is read off as it was answered. -/
theorem step?_of_section (i : Nat) (visit : Visit) (s : Scene R) (part : Lifecycle.Section) :
    step? c (.of (I := interface) i visit s (.under (.lifecycle c.lifecycle part))) =
      some ⟨i, part, ((s.lifecycle c.lifecycle).run part).2⟩ := by
  simp [step?, Event.of, serve_lifecycle, Served.answer?]

/-- Nothing else is a section of it. -/
theorem step?_eq_none {r : Request} (hr : ∀ part, r ≠ .under (.lifecycle c.lifecycle part))
    (i : Nat) (visit : Visit) (s : Scene R) :
    step? c (.of (I := interface) i visit s r) = none := by
  match r with
  | .under (.lifecycle id part) =>
    have hid : id ≠ c.lifecycle := by
      rintro rfl
      exact hr part rfl
    simp [step?, Event.of, serve_lifecycle, Served.answer?, hid]
  | .under (.queue _ _) | .under (.transaction _ _) | .under .newFlag | .under (.settle _)
  | .outside _ | .notify _ _ => rfl

theorem closed?_eq_none {i : Nat} {s s' : Scene R} {id : QueueId} {call : Queue.Call Delivery}
    {answer : Option call.Answer} (h : ¬ (id = c.queue ∧ call = .close)) :
    closed? c ⟨i, s, Request.under (.queue id call), answer, s'⟩ = none := by
  cases call with
  | close => exact if_neg fun hid => h ⟨hid, rfl⟩
  | enqueue | dequeue | tryDequeue | dequeueNoWait | dequeueTimeout | waitForMessage | look => rfl

theorem asked?_eq_none {i : Nat} {s s' : Scene R} {id : ChannelId} {call : Channel.Call}
    {answer : Option (Result Unit)} (h : ¬ ∃ tag, id = c.channel ∧ call = .cancel tag) :
    asked? c ⟨i, s, Request.outside (.channel id call), answer, s'⟩ = none := by
  cases call with
  | cancel tag => exact if_neg fun hid => h ⟨tag, hid, rfl⟩
  | acknowledge | reject => rfl

/-! ## The invariant -/

/-- **Where a consumer and its threads are**, by the events so far. -/
structure Conducted (c : Consumer) (tr : List (Event interface (Scene R))) (s : Scene R)
    (gs : List Role) : Prop where
  course : Course (tr.filterMap (step? c)) (s.lifecycle c.lifecycle)
  thread : ∀ i (g : Role), gs[i]? = some g → g.thread = i
  /-- Only the thread that has lost the transport finds it lost. -/
  lost : (s.lifecycle c.lifecycle).state = .transportLost →
    ∃ g : Role, gs[0]? = some g ∧ g.owes = .ending
  requests : Balanced (granted? c) (asked? c) Role.request? tr gs
  closings : Balanced (ended? c) (closed? c) Role.closing? tr gs
  shut : ∀ e ∈ tr, (closed? c e).isSome → (s.queue c.queue).isOpen = false

namespace Conducted

variable {tr : List (Event interface (Scene R))} {s s' : Scene R} {gs : List Role} {i : Nat}
variable {g : Role}

/-- A queue that was closed before an event is closed after it. -/
theorem shut_concat (h : Conducted c tr s gs) {e : Event interface (Scene R)}
    (hclosed : closed? c e = none)
    (hqueue : (s.queue c.queue).isOpen = false → (s'.queue c.queue).isOpen = false) :
    ∀ e' ∈ tr ++ [e], (closed? c e').isSome → (s'.queue c.queue).isOpen = false := by
  intro e' he' hsome
  rcases List.mem_append.mp he' with he' | he'
  · exact hqueue (h.shut e' he' hsome)
  · rw [List.mem_singleton.mp he', hclosed] at hsome
    cases hsome

/-- An event that has nothing to do with the consumer. -/
theorem quiet (h : Conducted c tr s gs) (hg : gs[i]? = some g) {e : Event interface (Scene R)}
    (hstep : step? c e = none) (hasked : asked? c e = none) (hclosed : closed? c e = none)
    (hstate : s'.lifecycle c.lifecycle = s.lifecycle c.lifecycle)
    (hqueue : (s.queue c.queue).isOpen = false → (s'.queue c.queue).isOpen = false) :
    Conducted c (tr ++ [e]) s' gs := by
  have hsame : gs.set i g = gs := set_eq_self hg
  refine ⟨?_, h.thread, by rw [hstate]; exact h.lost, ?_, ?_, h.shut_concat hclosed hqueue⟩
  · rw [filterMap_concat, hstep, hstate]
    simpa using h.course
  · rw [← hsame]
    exact h.requests.step hg (by simp [granted?, hstep, hasked])
  · rw [← hsame]
    exact h.closings.step hg (by simp [ended?, hstep, hclosed])

/-- A thread whose note is replaced is still itself. -/
theorem thread_set (h : Conducted c tr s gs) (hg : gs[i]? = some g) {g' : Role}
    (hthread : g'.thread = g.thread) :
    ∀ j (g'' : Role), (gs.set i g')[j]? = some g'' → g''.thread = j := by
  intro j g'' hj
  rcases cases_of_getElem?_set hg hj with ⟨rfl, rfl⟩ | ⟨-, hj⟩
  · rw [hthread, h.thread i g hg]
  · exact h.thread j g'' hj

/-- The thread that has lost the transport ends the consumer next. -/
theorem lost_set (h : Conducted c tr s gs) (hg : gs[i]? = some g) {g' : Role}
    (howes : g.owes ≠ .ending) (hlost : (s.lifecycle c.lifecycle).state = .transportLost) :
    ∃ g'' : Role, (gs.set i g')[0]? = some g'' ∧ g''.owes = .ending := by
  obtain ⟨g₀, hg₀, hending⟩ := h.lost hlost
  have hne : i ≠ 0 := by
    rintro rfl
    rw [hg, Option.some_inj] at hg₀
    exact howes (hg₀ ▸ hending)
  exact ⟨g₀, by rw [List.getElem?_set_ne hne, hg₀], hending⟩

/-- The transport is not lost again before the consumer is ended. -/
theorem not_lost (h : Conducted c tr s gs) (hg : gs[i]? = some g) (part : Lifecycle.Section)
    (hbegins : g.Begins part) :
    ∀ reason, part = .loseTransport reason → (s.lifecycle c.lifecycle).state ≠ .transportLost := by
  rintro reason rfl hlost
  obtain ⟨hzero, hnothing⟩ := hbegins
  obtain ⟨g₀, hg₀, hending⟩ := h.lost hlost
  rw [← hzero, h.thread i g hg, hg, Option.some_inj] at hg₀
  rw [← hg₀, hnothing] at hending
  cases hending

/-- A section leaves the transport lost only to the thread that is about
to end the consumer. -/
theorem lost_after (h : Conducted c tr s gs) (hg : gs[i]? = some g) (part : Lifecycle.Section)
    (hbegins : g.Begins part)
    (hlost : ((s.lifecycle c.lifecycle).run part).1.state = .transportLost) :
    ∃ g' : Role, (gs.set i (g.after part ((s.lifecycle c.lifecycle).run part).2))[0]? = some g' ∧
      g'.owes = .ending := by
  cases part with
  | start tag =>
    by_cases hstate : (s.lifecycle c.lifecycle).state = .created
    · simp [run, hstate] at hlost
    · simp only [run, hstate, if_false] at hlost
      exact h.lost_set hg (by simp [hbegins.2]) hlost
  | requestCancel =>
    have howes : g.owes = .nothing := hbegins
    refine h.lost_set hg (by simp [howes]) ?_
    simp only [run] at hlost
    split at hlost <;> exact hlost
  | loseTransport reason =>
    by_cases hterminal : (s.lifecycle c.lifecycle).state.isTerminal
    · simp only [run, hterminal, if_true] at hlost
      simp [hlost, ConsumerState.isTerminal] at hterminal
    · simp only [run, hterminal, Bool.false_eq_true, if_false]
      have hzero : i = 0 := (h.thread i g hg).symm.trans hbegins.1
      subst hzero
      exact ⟨_, getElem?_set_of_some hg _, rfl⟩
  | cancel => cases hlost
  | look =>
    rw [show g.after .look _ = g from rfl, set_eq_self hg]
    exact h.lost hlost

/-- A section of the lifecycle. -/
theorem serve_section (h : Conducted c tr s gs) (hg : gs[i]? = some g) (part : Lifecycle.Section)
    (hbegins : g.Begins part)
    (hstate : s'.lifecycle c.lifecycle = ((s.lifecycle c.lifecycle).run part).1)
    (hqueue : s'.queue c.queue = s.queue c.queue) :
    let a := ((s.lifecycle c.lifecycle).run part).2
    Conducted c (tr ++ [⟨i, s, Request.under (.lifecycle c.lifecycle part), some a, s'⟩]) s'
      (gs.set i (g.after part a)) := by
  have hi : g.thread = i := h.thread i g hg
  have hstep : step? c (R := R) ⟨i, s, Request.under (.lifecycle c.lifecycle part),
      some ((s.lifecycle c.lifecycle).run part).2, s'⟩ =
        some ⟨i, part, ((s.lifecycle c.lifecycle).run part).2⟩ := if_pos rfl
  refine ⟨?_, h.thread_set hg (by simp), ?_, ?_, ?_, h.shut_concat rfl (hqueue ▸ id)⟩
  · rw [filterMap_concat, hstep, hstate]
    exact h.course.next i part (h.not_lost hg part hbegins)
  · rw [hstate]
    exact h.lost_after hg part hbegins
  · refine h.requests.step hg ?_
    have hbalance := Role.request?_after hbegins ((s.lifecycle c.lifecycle).run part).2
    rw [granted?, hstep, ← hbalance, hi]
    exact (List.append_nil _).symm
  · refine h.closings.step hg ?_
    have hbalance := Role.closing?_after hbegins ((s.lifecycle c.lifecycle).run part).2
    rw [ended?, hstep, ← hbalance, hi]
    exact (List.append_nil _).symm

/-- The broker is asked to cancel. -/
theorem serve_cancel (h : Conducted c tr s gs) (hg : gs[i]? = some g) {tag : String}
    (howes : g.owes = .request tag) (answer : Option (Result Unit))
    (hstate : s'.world = s.world) :
    Conducted c
      (tr ++ [⟨i, s, Request.outside (.channel c.channel (.cancel tag)), answer, s'⟩]) s'
      (gs.set i g.rests) := by
  have hi : g.thread = i := h.thread i g hg
  have hlifecycle : s'.lifecycle c.lifecycle = s.lifecycle c.lifecycle := by
    rw [Scene.lifecycle, hstate]
    rfl
  have hqueue : s'.queue c.queue = s.queue c.queue := by
    rw [Scene.queue, hstate]
    rfl
  refine ⟨?_, h.thread_set hg rfl, fun hlost => ?_, ?_, ?_, h.shut_concat rfl (hqueue ▸ id)⟩
  · rw [filterMap_concat, hlifecycle]
    simpa [step?] using h.course
  · rw [hlifecycle] at hlost
    exact h.lost_set hg (by simp [howes]) hlost
  · refine h.requests.step hg ?_
    simp [granted?, step?, asked?, Role.request?, Role.rests, howes, hi]
  · refine h.closings.step hg ?_
    simp [ended?, step?, closed?, Role.closing?, Role.rests, howes]

/-- The queue is closed. -/
theorem serve_close (h : Conducted c tr s gs) (hg : gs[i]? = some g) (howes : g.owes = .closing)
    (answer : Option Bool) (hstate : s'.lifecycle c.lifecycle = s.lifecycle c.lifecycle)
    (hqueue : (s'.queue c.queue).isOpen = false) :
    Conducted c (tr ++ [⟨i, s, Request.under (.queue c.queue .close), answer, s'⟩]) s'
      (gs.set i g.rests) := by
  have hi : g.thread = i := h.thread i g hg
  refine ⟨?_, h.thread_set hg rfl, fun hlost => ?_, ?_, ?_, fun _ _ _ => hqueue⟩
  · rw [filterMap_concat, hstate]
    simpa [step?] using h.course
  · rw [hstate] at hlost
    exact h.lost_set hg (by simp [howes]) hlost
  · refine h.requests.step hg ?_
    simp [granted?, step?, asked?, Role.request?, Role.rests, howes]
  · refine h.closings.step hg ?_
    simp [ended?, step?, closed?, Role.closing?, Role.rests, howes, hi]

/-- Whatever was asked of the broker was granted before. -/
theorem granted_of_asked (h : Conducted c tr s gs) :
    ((tr.filterMap (asked? c) : List (Nat × String)) : Multiset (Nat × String)) ≤
      (tr.filterMap (granted? c) : List (Nat × String)) := by
  rw [h.requests]
  exact Multiset.le_add_left _ _

/-- Whoever closes the queue has ended the consumer before. -/
theorem ended_of_closed (h : Conducted c tr s gs) :
    ((tr.filterMap (closed? c) : List Nat) : Multiset Nat) ≤
      (tr.filterMap (ended? c) : List Nat) := by
  rw [h.closings]
  exact Multiset.le_add_left _ _

/-- The broker may be asked once, with the recorded tag. -/
theorem granted_eq (h : Conducted c tr s gs) :
    (tr.filterMap (granted? c)).map Prod.snd =
      if (s.lifecycle c.lifecycle).cancelRequested then
        (s.lifecycle c.lifecycle).consumerTag.toList else [] := by
  have hgranted := h.course.kept.granted
  rwa [List.filterMap_filterMap] at hgranted

theorem started_eq (h : Conducted c tr s gs) :
    tr.filterMap (started? c) = (s.lifecycle c.lifecycle).consumerTag.toList := by
  have htag := h.course.kept.tag
  rwa [List.filterMap_filterMap] at htag

theorem lost_eq (h : Conducted c tr s gs) :
    tr.filterMap (lost? c) = (s.lifecycle c.lifecycle).shutdownReason.toList := by
  have hreason := h.course.kept.reason
  rwa [List.filterMap_filterMap] at hreason

/-- The consumer is ended once, and is canceled from then on. -/
theorem length_ended (h : Conducted c tr s gs) :
    (tr.filterMap (ended? c)).length =
      if (s.lifecycle c.lifecycle).state = .canceled then 1 else 0 := by
  have hended := h.course.kept.ended
  rwa [List.filterMap_filterMap] at hended

theorem length_granted_le (h : Conducted c tr s gs) : (tr.filterMap (granted? c)).length ≤ 1 := by
  rw [← List.length_map Prod.snd, h.granted_eq]
  split
  · cases (s.lifecycle c.lifecycle).consumerTag <;> simp
  · exact Nat.zero_le _

theorem length_ended_le (h : Conducted c tr s gs) : (tr.filterMap (ended? c)).length ≤ 1 := by
  rw [h.length_ended]
  split <;> omega

/-- When the thread that has ended the consumer owes nothing, it has closed
the queue. -/
theorem closed_of_rests (h : Conducted c tr s gs) (hi : i ∈ tr.filterMap (ended? c))
    (hg : gs[i]? = some g) (howes : g.owes = .nothing) : tr.filterMap (closed? c) = [i] := by
  have hended : tr.filterMap (ended? c) = [i] := by
    have hlength := h.length_ended_le
    obtain ⟨j, hj⟩ := List.length_eq_one_iff.mp
      (Nat.le_antisymm hlength (List.length_pos_of_mem hi))
    rw [hj, List.mem_singleton] at hi
    rw [hj, hi]
  have hbalance := h.closings
  rw [Balanced, hended] at hbalance
  -- another thread that has yet to close the queue would have ended the consumer, too
  have hnobody : gs.filterMap Role.closing? = [] := by
    rw [List.filterMap_eq_nil_iff]
    intro g' hg'
    by_contra hsome
    obtain ⟨k, hk⟩ := Option.ne_none_iff_exists'.mp hsome
    have hmem : k ∈ gs.filterMap Role.closing? := List.mem_filterMap.mpr ⟨g', hg', hk⟩
    have hki : k = i := by
      have hin : k ∈ (([i] : List Nat) : Multiset Nat) := by
        rw [hbalance]
        exact Multiset.mem_add.mpr (.inl hmem)
      simpa using hin
    obtain ⟨j, hj⟩ := List.getElem?_of_mem hg'
    have hthread := h.thread j g' hj
    unfold Role.closing? at hk
    split at hk
    · rename_i hclosing
      rw [Option.some_inj, hthread, hki] at hk
      rw [hk, hg, Option.some_inj] at hj
      rw [← hj, howes] at hclosing
      cases hclosing
    · cases hk
  rw [hnobody] at hbalance
  have hperm := Multiset.coe_eq_coe.mp (hbalance.trans (zero_add _))
  exact List.perm_singleton.mp hperm.symm

end Conducted

/-! ## Every run -/

/-- Channels and participants that may cancel the consumer while they are
called, and leave it alone apart from that. -/
structure Hosts (c : Consumer) extends Reactions where
  minds_channel : ∀ turn id call, Minds c (channel turn id call)
  minds_participant : ∀ turn id notice, Minds c (participant turn id notice)

/-- A queue that is closed stays closed. -/
theorem isOpen_serve {id : QueueId} (visit : Visit) (s : Scene R) (r : Request)
    (h : (s.queue id).isOpen = false) :
    ((Server.serve (I := interface) visit s r).state.queue id).isOpen = false := by
  rcases queue_serve_cases visit s r id with hsame | ⟨call, -, hpass⟩
  · rw [hsame, h]
  · rw [hpass, Bool.eq_false_iff]
    intro hopen
    have hafter : (Event.of (I := Queue.interface Delivery) 0 visit (s.queue id)
        call).after.isOpen := by
      rw [Queue.event_of]
      exact hopen
    have hwas := (Queue.isOpen_after.mp hafter).1
    rw [h] at hwas
    exact Bool.false_ne_true hwas

/-- Closing a queue closes it. -/
theorem isOpen_close (visit : Visit) (s : Scene R) (id : QueueId) :
    ((Server.serve (I := interface) visit s
      (.under (.queue id .close))).state.queue id).isOpen = false := by
  rw [Scene.queue, queue_serve, Store.get_set_self]
  obtain ⟨items, isOpen⟩ := s.queue id
  cases isOpen <;> rfl

/-- What a run keeps: the threads keep to the conduct, and the lifecycle
goes on. -/
def Goes (c : Consumer) (tr : List (Event interface (Scene R))) (s : Scene R) (gs : List Role) :
    Prop :=
  Conducted c tr s gs ∧
    ∀ e ∈ tr, Onward (e.before.lifecycle c.lifecycle) (e.after.lifecycle c.lifecycle)

section Goes

variable {tr : List (Event interface (Scene R))} {s : Scene R} {gs : List Role} {i : Nat}
variable {g : Role} {visit : Visit}

theorem Goes.concat (h : Goes c tr s gs) {e : Event interface (Scene R)} {s' : Scene R}
    {gs' : List Role} (hconducted : Conducted c (tr ++ [e]) s' gs')
    (honward : Onward (e.before.lifecycle c.lifecycle) (e.after.lifecycle c.lifecycle)) :
    Goes c (tr ++ [e]) s' gs' :=
  ⟨hconducted, List.forall_mem_append.mpr ⟨h.2, List.forall_mem_singleton.mpr honward⟩⟩

/-- A request that has nothing to do with the consumer. -/
theorem Goes.quiet (h : Goes c tr s gs) (hg : gs[i]? = some g) {r : Request}
    {answer : Option r.Answer}
    (hstep : step? c ⟨i, s, r, answer, (Server.serve (I := interface) visit s r).state⟩ = none)
    (hasked : asked? c ⟨i, s, r, answer, (Server.serve (I := interface) visit s r).state⟩ = none)
    (hclosed : closed? c ⟨i, s, r, answer, (Server.serve (I := interface) visit s r).state⟩ = none)
    (hstate : (Server.serve (I := interface) visit s r).state.lifecycle c.lifecycle =
      s.lifecycle c.lifecycle) :
    Goes c (tr ++ [⟨i, s, r, answer, (Server.serve (I := interface) visit s r).state⟩])
      (Server.serve (I := interface) visit s r).state gs := by
  refine h.concat (h.1.quiet hg hstep hasked hclosed hstate (isOpen_serve visit s r)) ?_
  rw [hstate]
  exact .refl _

/-- A section, of this consumer's lifecycle or another's. -/
theorem Goes.lifecycle_section (h : Goes c tr s gs) (hg : gs[i]? = some g) {id : LifecycleId}
    {part : Lifecycle.Section} (hpermit : id = c.lifecycle → g.Begins part) :
    let a := ((s.lifecycle id).run part).2
    let s' := (Server.serve (I := interface) visit s (.under (.lifecycle id part))).state
    ∃ g', (conduct c).Leads g (.under (.lifecycle id part)) a g' ∧
      Goes c (tr ++ [⟨i, s, Request.under (.lifecycle id part), some a, s'⟩]) s'
        (gs.set i g') := by
  by_cases hid : id = c.lifecycle
  · subst hid
    have hbegins : g.Begins part := hpermit rfl
    refine ⟨_, by simp [conduct], h.concat (h.1.serve_section hg part hbegins
      (lifecycle_serve visit s c.lifecycle part) rfl) ?_⟩
    rw [lifecycle_serve]
    exact (h.1.course.kept.next i part (h.1.not_lost hg part hbegins)).2
  · refine ⟨g, by simp [conduct, hid], ?_⟩
    rw [set_eq_self hg]
    exact h.quiet hg (by simp [step?, hid]) rfl rfl (lifecycle_eq_of_ne (by simp [hid]) visit s)

/-- A pass of this consumer's queue or another's, which may be the one that
closes it. -/
theorem Goes.queue_pass (h : Goes c tr s gs) (hg : gs[i]? = some g) {id : QueueId}
    {call : Queue.Call Delivery} (hpermit : (conduct c).Permits g (.under (.queue id call)))
    (a : call.Answer) :
    let s' := (Server.serve (I := interface) visit s (.under (.queue id call))).state
    ∃ g', (conduct c).Leads g (.under (.queue id call)) a g' ∧
      Goes c (tr ++ [⟨i, s, Request.under (.queue id call), some a, s'⟩]) s' (gs.set i g') := by
  have hstate : (Server.serve (I := interface) visit s
      (.under (.queue id call))).state.lifecycle c.lifecycle = s.lifecycle c.lifecycle :=
    lifecycle_eq_of_ne (by simp) visit s
  by_cases hclose : id = c.queue ∧ call = .close
  · obtain ⟨rfl, rfl⟩ := hclose
    refine ⟨g.rests, by simp [conduct],
      h.concat (h.1.serve_close hg (hpermit rfl) _ hstate (isOpen_close visit s c.queue)) ?_⟩
    rw [hstate]
    exact .refl _
  · refine ⟨g, ?_, ?_⟩
    · cases call with
      | close => exact (if_neg fun hid => hclose ⟨hid, rfl⟩).symm
      | _ => rfl
    · rw [set_eq_self hg]
      exact h.quiet hg rfl rfl (closed?_eq_none hclose) hstate

variable {H : Hosts c}

/-- A call on this consumer's channel or another's, which may be the one
that asks the broker to cancel. -/
theorem Goes.channel_call {s : Scene H.toReactions}
    {tr : List (Event interface (Scene H.toReactions))} (h : Goes c tr s gs)
    (hg : gs[i]? = some g) {id : ChannelId} {call : Channel.Call}
    (hpermit : (conduct c).Permits g (.outside (.channel id call))) :
    let s' := (Server.serve (I := interface) visit s (.outside (.channel id call))).state
    ∃ g', Goes c (tr ++ [⟨i, s, Request.outside (.channel id call), none, s'⟩]) s' (gs.set i g') ∧
      (H.channel s.turn id call).Follows (conduct c)
        (fun a g'' => (conduct c).Leads g (.outside (.channel id call)) a g'') g' := by
  by_cases hcancel : ∃ tag, id = c.channel ∧ call = .cancel tag
  · obtain ⟨tag, rfl, rfl⟩ := hcancel
    have howes : g.owes = .request tag := by simpa [conduct] using hpermit
    -- the tag is used up when the call begins, whatever the channel then does
    exact ⟨g.rests, h.concat (h.1.serve_cancel hg howes none rfl) (.refl _),
      (H.minds_channel _ _ _).follows rfl⟩
  · have howes : g.owes = .nothing := by
      cases call with
      | cancel tag =>
        have hid : id ≠ c.channel := fun hid => hcancel ⟨tag, hid, rfl⟩
        simpa [conduct, hid] using hpermit
      | acknowledge | reject => exact hpermit
    refine ⟨g, ?_, ((H.minds_channel _ _ _).follows howes).mono fun _ g' hg' =>
      hg'.trans (g.rests_eq howes).symm⟩
    rw [set_eq_self hg]
    exact h.quiet hg rfl (asked?_eq_none hcancel) rfl rfl

end Goes

variable {H : Hosts c}

/-- A close does not wait. -/
theorem close_ne_sleeps {visit : Visit} {s s' : Scene R} {id : QueueId} {cond : Condition}
    {deadline : Option Instant} :
    Server.serve (I := interface) visit s (.under (.queue id .close)) ≠
      .sleeps s' cond deadline := by
  intro hserve
  simp only [Server.serve, World.serve, Queue.pass, Queue.Pass.served] at hserve
  cases hopen : (s.world.queues.get id).isOpen <;> simp [hopen] at hserve

/-- **The discipline upholds the life of the consumer.** -/
theorem conduct_upholds : (conduct c).Upholds (fun _ _ => True)
    (fun tr (s : Scene H.toReactions) gs => Goes c tr s gs) where
  answers := by
    intro tr s s' gs i g visit r signal a h _ hg hpermit hserve _
    obtain rfl : s' = (Server.serve (I := interface) visit s r).state := by rw [hserve]; rfl
    match r with
    | .under (.lifecycle id part) =>
      obtain rfl : ((s.lifecycle id).run part).2 = a := by cases hserve; rfl
      exact h.lifecycle_section hg hpermit
    | .under (.queue id call) => exact h.queue_pass hg hpermit a
    | .under (.transaction _ _) | .under .newFlag | .under (.settle _) | .outside (.log _ _) =>
      refine ⟨g, rfl, ?_⟩
      rw [set_eq_self hg]
      exact h.quiet hg rfl rfl rfl rfl
    | .outside (.channel _ _) | .notify (.delivery _) _ | .notify (.other _) _ => cases hserve
  sleeps := by
    intro tr s s' gs i g visit r cond deadline h _ hg hpermit hserve _
    obtain rfl : s' = (Server.serve (I := interface) visit s r).state := by rw [hserve]; rfl
    match r with
    | .under (.queue id call) =>
      have hclose : ¬ (id = c.queue ∧ call = .close) := by
        rintro ⟨rfl, rfl⟩
        exact close_ne_sleeps hserve
      exact h.quiet hg rfl rfl (closed?_eq_none hclose) (lifecycle_eq_of_ne (by simp) visit s)
    | .under (.lifecycle _ _) | .under (.transaction _ _) | .under .newFlag | .under (.settle _)
    | .outside (.channel _ _) | .outside (.log _ _) | .notify (.delivery _) _
    | .notify (.other _) _ => cases hserve
  runs := by
    intro tr s s' gs i g visit r p h _ hg hpermit hserve _
    obtain rfl : s' = (Server.serve (I := interface) visit s r).state := by rw [hserve]; rfl
    match r with
    | .outside (.channel id call) =>
      obtain rfl : H.channel s.turn id call = p := by cases hserve; rfl
      exact h.channel_call hg hpermit
    | .notify (.delivery e) notice =>
      cases hserve
      refine ⟨g, ?_, (e.minds notice).follows hpermit⟩
      rw [set_eq_self hg]
      exact h.quiet hg rfl rfl rfl rfl
    | .notify (.other id) notice =>
      cases hserve
      refine ⟨g, ?_, (H.minds_participant _ _ _).follows hpermit⟩
      rw [set_eq_self hg]
      exact h.quiet hg rfl rfl rfl rfl
    | .under (.queue id call) =>
      simp only [Server.serve, World.serve, Queue.Pass.served] at hserve
      split at hserve <;> cases hserve
    | .under (.lifecycle _ _) | .under (.transaction _ _) | .under .newFlag | .under (.settle _)
    | .outside (.log _ _) => cases hserve

end Lifespan

end MessageIntake
