import MessageIntake.Proofs.Consumer.Subscription

/-!
# When a cancellation takes effect

A consumer is ended under its own lock and its queue is closed under
another, after that. The call that has ended the consumer closes the queue
before it returns. Any other call finds the consumer ended and returns at
once, which may be before the queue is closed (`not_effective`).

`takes_effect` says what is true of every run: whoever cancels the
consumer and has returned leaves it canceled, and its queue is closed
unless the call that has ended it is still to return. From then on
deliveries are refused and nobody sleeps on the queue.
-/

namespace MessageIntake.Cancellation

open Client Lifespan Ending

variable {R : Reactions} {c : Consumer} {α : Type}

/-! ## Who closes the queue -/

/-- Where a thread is between ending a consumer and closing its queue. -/
structure Stage where
  /-- It has found or left the consumer canceled. -/
  canceled : Bool := false
  /-- It has ended the consumer and is about to close the queue. -/
  closing : Bool := false

/-- **The discipline of ending a consumer**: whoever has ended it closes its
queue before anything else that takes time. -/
def closing (c : Consumer) : Discipline Client.interface Stage where
  Permits
    | g, .under (.lifecycle id .cancel) => id = c.lifecycle → g.closing = false
    | g, .under (.queue id .close) => id = c.queue → g.closing
    | g, .outside (.channel _ _) | g, .notify _ _ => g.closing = false
    | _, _ => True
  Leads
    | g, .under (.lifecycle id .cancel), (state, _), g' =>
      g' = if id = c.lifecycle then ⟨true, state ≠ .canceled⟩ else g
    | g, .under (.lifecycle id (.loseTransport _)), counts, g' =>
      g' = if id = c.lifecycle then { g with canceled := g.canceled || !counts } else g
    | g, .under (.queue id .close), _, g' =>
      g' = if id = c.queue then { g with closing := false } else g
    | _, .outside (.channel _ _), _, g' | _, .notify _ _, _, g' => g'.closing = false
    | g, _, _, g' => g' = g

/-- Who is not about to close the queue. -/
def Idle (g : Stage) : Prop := g.closing = false

/-- Who has canceled the consumer, and is done with it. -/
def Over (g : Stage) : Prop := g.canceled ∧ Idle g

/-- Ending the consumer. -/
theorem onCancel_follows {g : Stage} (hg : Idle g) :
    c.onCancel.Follows (closing c) (fun _ => Over) g := by
  refine ⟨fun _ => hg, fun a g' hlead => ?_⟩
  obtain ⟨state, tag⟩ := a
  simp only [closing, if_true] at hlead
  subst hlead
  dsimp only [Program.done_bind]
  by_cases hstate : state = .canceled
  · simp only [hstate, if_true]
    exact ⟨rfl, rfl⟩
  · simp only [hstate, if_false]
    refine ⟨fun _ => by simp [hstate], fun _ g' hlead => ?_⟩
    simp only [closing, if_true] at hlead
    subst hlead
    exact ⟨trivial, fun _ _ hlead => hlead ▸ ⟨trivial, fun _ _ hlead => hlead ▸ ⟨rfl, rfl⟩⟩⟩

/-- A request that neither ends the consumer nor closes its queue. -/
theorem keeps_idle {r : Request} (hr : r.Defers c) : (closing c).Keeps Idle r := by
  intro g hg
  match r with
  | .under (.lifecycle id part) =>
    cases part with
    | cancel =>
      have hid : id ≠ c.lifecycle := hr
      refine ⟨fun h => absurd h hid, fun a g' hlead => ?_⟩
      simp only [closing, hid, if_false] at hlead
      exact hlead ▸ hg
    | loseTransport reason =>
      refine ⟨trivial, fun a g' hlead => ?_⟩
      simp only [closing] at hlead
      subst hlead
      split <;> exact hg
    | start | requestCancel | look => exact ⟨trivial, fun _ _ hlead => hlead ▸ hg⟩
  | .under (.queue id call) =>
    cases call with
    | close =>
      have hid : id ≠ c.queue := hr
      refine ⟨fun h => absurd h hid, fun a g' hlead => ?_⟩
      simp only [closing, hid, if_false] at hlead
      exact hlead ▸ hg
    | enqueue | dequeue | tryDequeue | dequeueNoWait | dequeueTimeout | waitForMessage | look =>
      exact ⟨trivial, fun _ _ hlead => hlead ▸ hg⟩
  | .under (.transaction _ _) | .under .newFlag | .under (.settle _) | .outside (.log _ _) =>
    exact ⟨trivial, fun _ _ hlead => hlead ▸ hg⟩
  | .outside (.channel _ _) | .notify _ _ => exact ⟨hg, fun _ _ hlead => hlead⟩

theorem silent_follows {Ends : α → Prop} {p : Action α} (hp : Attends c Ends p) {g : Stage}
    (hg : Idle g) : p.Follows (closing c) (fun _ => Idle) g := by
  induction hp generalizing g with
  | done => exact hg
  | ask hr _ ih => exact (keeps_idle hr).follows hg fun a _ hg' => ih a hg'
  | onCancel _ ih => exact (onCancel_follows hg).bind fun _ _ hg' => ih hg'.2

/-- The ways to cancel a consumer. -/
inductive Way where
  | asked
  | byBroker (tag : String)
  | confirmed (tag : String)
  | lost (reason : ShutdownReason)

def Way.action (c : Consumer) : Way → Action Unit
  | .asked => c.cancel.bind fun _ => .done ()
  | .byBroker tag => c.cancelByBroker tag
  | .confirmed tag => c.cancelConfirmed tag
  | .lost reason => c.shutdown reason

/-- **Every way to cancel a consumer leaves it canceled.** -/
theorem Way.follows (way : Way) {g : Stage} (hg : Idle g) :
    (way.action c).Follows (closing c) (fun _ => Over) g := by
  cases way with
  | asked =>
    have hcancel : c.cancel.Follows (closing c) (fun _ => Over) g := by
      refine ⟨trivial, fun tag? g' hlead => ?_⟩
      obtain rfl : g' = g := hlead
      cases tag? with
      | none => exact (onCancel_follows hg).bind fun _ _ hover => hover
      | some tag =>
        refine ⟨hg, fun _ g'' hidle => ?_⟩
        exact (onCancel_follows (g := g'') hidle).bind fun _ _ hover => hover
    exact hcancel.bind fun _ _ hover => hover
  | byBroker tag | confirmed tag => exact ⟨trivial, fun _ _ hlead => hlead ▸ onCancel_follows hg⟩
  | lost reason =>
    refine ⟨trivial, fun counts g' hlead => ?_⟩
    simp only [closing, if_true] at hlead
    subst hlead
    cases counts with
    | false => exact ⟨by simp, hg⟩
    | true =>
      dsimp only [Program.done_bind]
      by_cases hclean : reason.isClean <;> simp only [hclean] <;>
        exact ⟨trivial, fun _ _ hlead => hlead ▸ onCancel_follows hg⟩

/-! ## What single requests do -/

/-- Only the section that ends a consumer leaves it canceled. -/
theorem canceled_run {l : Lifecycle} {part : Lifecycle.Section}
    (h : (l.run part).1.state = .canceled) : l.state = .canceled ∨ part = .cancel := by
  cases part with
  | cancel => exact .inr rfl
  | start tag =>
    simp only [Lifecycle.run] at h
    split at h
    · cases h
    · exact .inl h
  | requestCancel =>
    simp only [Lifecycle.run] at h
    split at h <;> exact .inl h
  | loseTransport reason =>
    simp only [Lifecycle.run] at h
    split at h
    · exact .inl h
    · cases h
  | look => exact .inl h

/-- Whoever ends a consumer is the one that is served, and finds it not
canceled. -/
theorem ended?_of (i : Nat) (visit : Visit) (s : Scene R) (r : Request) :
    (r = .under (.lifecycle c.lifecycle .cancel) ∧ (s.lifecycle c.lifecycle).state ≠ .canceled ∧
        ended? c (.of (I := interface) i visit s r) = some i) ∨
      ((r = .under (.lifecycle c.lifecycle .cancel) → (s.lifecycle c.lifecycle).state = .canceled) ∧
        ended? c (.of (I := interface) i visit s r) = none) := by
  by_cases hr : ∃ part, r = .under (.lifecycle c.lifecycle part)
  · obtain ⟨part, rfl⟩ := hr
    rw [ended?, step?_of_section, Option.bind_some]
    cases part with
    | cancel =>
      by_cases hstate : (s.lifecycle c.lifecycle).state = .canceled
      · exact .inr ⟨fun _ => hstate, if_pos hstate⟩
      · exact .inl ⟨rfl, hstate, if_neg hstate⟩
    | start | requestCancel | loseTransport | look => exact .inr ⟨by rintro ⟨⟩, rfl⟩
  · rw [ended?, step?_eq_none fun part hpart => hr ⟨part, hpart⟩]
    exact .inr ⟨fun hcancel => absurd ⟨_, hcancel⟩ hr, rfl⟩

theorem ended?_eq_none {r : Request} (hr : r ≠ .under (.lifecycle c.lifecycle .cancel)) (i : Nat)
    (visit : Visit) (s : Scene R) : ended? c (.of (I := interface) i visit s r) = none := by
  rcases ended?_of (c := c) i visit s r with ⟨hcancel, -, -⟩ | ⟨-, hnone⟩
  · exact absurd hcancel hr
  · exact hnone

/-- Nothing else changes whether a consumer is canceled. -/
theorem canceled_serve_iff {i : Nat} {visit : Visit} {s : Scene R} {r : Request}
    (h : ended? c (.of (I := interface) i visit s r) = none) :
    ((Server.serve (I := interface) visit s r).state.lifecycle c.lifecycle).state = .canceled ↔
      (s.lifecycle c.lifecycle).state = .canceled := by
  refine ⟨fun hafter => ?_, fun hbefore => ?_⟩
  · rcases ended?_of (c := c) i visit s r with ⟨-, -, hended⟩ | ⟨hcancel, -⟩
    · rw [h] at hended
      cases hended
    · by_cases hr : ∃ part, r = .under (.lifecycle c.lifecycle part)
      · obtain ⟨part, rfl⟩ := hr
        rw [lifecycle_serve] at hafter
        rcases canceled_run hafter with hstate | rfl
        · exact hstate
        · exact hcancel rfl
      · rwa [lifecycle_eq_of_ne fun part hpart => hr ⟨part, hpart⟩] at hafter
  · rw [lifecycle_serve_of_canceled visit s r hbefore, hbefore]

/-- Nobody sleeps on a closed queue. -/
theorem isSome_answer_of_closed {visit : Visit} {s : Scene R} {id : QueueId}
    (h : (s.queue id).isOpen = false) (call : Queue.Call Delivery) :
    ((Server.serve (I := interface) visit s (.under (.queue id call))).answer?).isSome := by
  rw [answer_serve_queue]
  generalize s.queue id = q at h ⊢
  obtain ⟨items, isOpen⟩ := q
  obtain rfl : isOpen = false := h
  cases call with
  | enqueue | close | look => rfl
  | dequeue | tryDequeue | dequeueNoWait | dequeueTimeout | waitForMessage => cases items <;> rfl

/-- A closed queue refuses deliveries. -/
theorem enqueue_of_closed {visit : Visit} {s : Scene R} {id : QueueId}
    (h : (s.queue id).isOpen = false) (d : Delivery) :
    (Server.serve (I := interface) visit s (.under (.queue id (.enqueue d)))).answer? =
      some (.error .queueClosed) := by
  rw [answer_serve_queue]
  generalize s.queue id = q at h ⊢
  obtain ⟨items, isOpen⟩ := q
  obtain rfl : isOpen = false := h
  rfl

/-! ## The invariant -/

/-- **Who has ended a consumer, and what is left to do**, by the events so
far. -/
structure Staged (c : Consumer) (tr : List (Event interface (Scene R))) (s : Scene R)
    (gs : List Stage) : Prop where
  canceled : ∀ g ∈ gs, g.canceled → (s.lifecycle c.lifecycle).state = .canceled
  /-- The consumer is ended once, if it is canceled. -/
  ended : (tr.filterMap (ended? c)).length =
    if (s.lifecycle c.lifecycle).state = .canceled then 1 else 0
  /-- Whoever has ended it is about to close the queue, or it is closed. -/
  closes : ∀ i ∈ tr.filterMap (ended? c),
    (s.queue c.queue).isOpen = false ∨ ∃ g, gs[i]? = some g ∧ g.closing

section Staged

variable {tr : List (Event interface (Scene R))} {s : Scene R} {gs : List Stage} {i : Nat}
variable {g g' : Stage}

/-- **One event more**: the thread that is served knows what is so, and one
that is about to close the queue still is, or has closed it. -/
theorem Staged.serve (h : Staged c tr s gs) (hg : gs[i]? = some g) (visit : Visit) (r : Request)
    (hcanceled : g'.canceled →
      ((Server.serve (I := interface) visit s r).state.lifecycle c.lifecycle).state = .canceled)
    (hended : (ended? c (.of (I := interface) i visit s r)).isSome → g'.closing)
    (hclosing : g.closing → g'.closing ∨
      ((Server.serve (I := interface) visit s r).state.queue c.queue).isOpen = false) :
    Staged c (tr ++ [.of i visit s r]) (Server.serve (I := interface) visit s r).state
      (gs.set i g') where
  canceled g'' hmem := by
    rcases List.mem_or_eq_of_mem_set hmem with hmem | rfl
    · intro hknown
      rw [lifecycle_serve_of_canceled visit s r (h.canceled g'' hmem hknown)]
      exact h.canceled g'' hmem hknown
    · exact hcanceled
  ended := by
    rw [filterMap_concat, List.length_append, h.ended]
    rcases ended?_of (c := c) i visit s r with ⟨rfl, hstate, hsome⟩ | ⟨-, hnone⟩
    · rw [hsome, lifecycle_serve, if_neg hstate]
      rfl
    · rw [hnone]
      simp only [canceled_serve_iff hnone]
      rfl
  closes := by
    intro j hj
    rw [filterMap_concat, List.mem_append] at hj
    rcases hj with hj | hj
    -- who has ended the consumer before may be the one that is served now
    · rcases h.closes j hj with hclosed | ⟨g'', hg'', hclosing'⟩
      · exact .inl (isOpen_serve visit s r hclosed)
      · by_cases hij : i = j
        · subst hij
          rw [hg, Option.some_inj] at hg''
          subst hg''
          rcases hclosing hclosing' with hclosing | hclosed
          · exact .inr ⟨g', getElem?_set_of_some hg g', hclosing⟩
          · exact .inl hclosed
        · exact .inr ⟨g'', by rw [List.getElem?_set_ne hij, hg''], hclosing'⟩
    · rw [Option.mem_toList] at hj
      have hi : i = j := by
        rcases ended?_of (c := c) i visit s r with ⟨-, -, hsome⟩ | ⟨-, hnone⟩
        · rw [hsome] at hj
          exact Option.some_inj.mp hj
        · rw [hnone] at hj
          cases hj
      subst hi
      exact .inr ⟨g', getElem?_set_of_some hg g', hended (by rw [hj]; rfl)⟩

/-- A request that does not end the consumer. -/
theorem Staged.unended (h : Staged c tr s gs) (hg : gs[i]? = some g) (visit : Visit) {r : Request}
    (hr : r ≠ .under (.lifecycle c.lifecycle .cancel))
    (hcanceled : g'.canceled → (s.lifecycle c.lifecycle).state = .canceled)
    (hclosing : g.closing → g'.closing ∨
      ((Server.serve (I := interface) visit s r).state.queue c.queue).isOpen = false) :
    Staged c (tr ++ [.of i visit s r]) (Server.serve (I := interface) visit s r).state
      (gs.set i g') := by
  have hnone := ended?_eq_none hr i visit s
  refine h.serve hg visit r (fun hknown => ?_) (fun hsome => ?_) hclosing
  · exact (canceled_serve_iff hnone).mpr (hcanceled hknown)
  · rw [hnone] at hsome
    cases hsome

/-- A request that changes nothing for its thread. -/
theorem Staged.quiet (h : Staged c tr s gs) (hg : gs[i]? = some g) (visit : Visit) {r : Request}
    (hr : r ≠ .under (.lifecycle c.lifecycle .cancel)) :
    Staged c (tr ++ [.of i visit s r]) (Server.serve (I := interface) visit s r).state
      (gs.set i g) :=
  h.unended hg visit hr (h.canceled g (List.mem_of_getElem? hg)) .inl

/-- A section of the lifecycle, of this consumer or another. -/
theorem Staged.leads_section (h : Staged c tr s gs) (hg : gs[i]? = some g) (visit : Visit)
    {id : LifecycleId} {part : Lifecycle.Section}
    (hpermit : (closing c).Permits g (.under (.lifecycle id part))) :
    let r : Request := .under (.lifecycle id part)
    ∃ g', (closing c).Leads g r ((s.lifecycle id).run part).2 g' ∧
      Staged c (tr ++ [.of i visit s r]) (Server.serve (I := interface) visit s r).state
        (gs.set i g') := by
  cases part with
  | cancel =>
    refine ⟨_, rfl, ?_⟩
    by_cases hid : id = c.lifecycle
    · subst hid
      rw [if_pos rfl]
      refine h.serve hg visit _ (fun _ => ?_) (fun hsome => ?_) fun hclosing => ?_
      · rw [lifecycle_serve]
        rfl
      · rcases ended?_of (c := c) i visit s (.under (.lifecycle c.lifecycle .cancel)) with
          ⟨-, hstate, -⟩ | ⟨-, hnone⟩
        · exact decide_eq_true hstate
        · rw [hnone] at hsome
          cases hsome
      · -- nobody ends the consumer while it has yet to close the queue
        rw [hpermit rfl] at hclosing
        cases hclosing
    · rw [if_neg hid]
      exact h.quiet hg visit (by simp [hid])
  | loseTransport reason =>
    refine ⟨_, rfl, ?_⟩
    by_cases hid : id = c.lifecycle
    · subst hid
      rw [if_pos rfl]
      refine h.unended hg visit (by simp) (fun hknown => ?_) .inl
      rcases Bool.or_eq_true_iff.mp hknown with hknown | hrefused
      · exact h.canceled g (List.mem_of_getElem? hg) hknown
      · -- a loss is refused by a canceled lifecycle only
        by_contra hstate
        simp [Lifecycle.run, ConsumerState.isTerminal, hstate] at hrefused
    · rw [if_neg hid]
      exact h.quiet hg visit (by simp)
  | start | requestCancel | look => exact ⟨g, rfl, h.quiet hg visit (by simp)⟩

/-- A call of a queue, of this consumer or another. -/
theorem Staged.leads_queue (h : Staged c tr s gs) (hg : gs[i]? = some g) (visit : Visit)
    {id : QueueId} {call : Queue.Call Delivery} (a : call.Answer) :
    let r : Request := .under (.queue id call)
    ∃ g', (closing c).Leads g r a g' ∧
      Staged c (tr ++ [.of i visit s r]) (Server.serve (I := interface) visit s r).state
        (gs.set i g') := by
  cases call with
  | close =>
    refine ⟨_, rfl, ?_⟩
    by_cases hid : id = c.queue
    · subst hid
      rw [if_pos rfl]
      exact h.unended hg visit nofun (h.canceled g (List.mem_of_getElem? hg)) fun _ =>
        .inr (isOpen_close visit s c.queue)
    · rw [if_neg hid]
      exact h.quiet hg visit nofun
  | enqueue | dequeue | tryDequeue | dequeueNoWait | dequeueTimeout | waitForMessage | look =>
    exact ⟨g, rfl, h.quiet hg visit nofun⟩

end Staged

variable {A : Attendants c fun _ => True}

/-- **The discipline upholds the stages.** -/
theorem closing_upholds : (closing c).Upholds (fun _ _ => True)
    (fun tr (s : Scene A.toReactions) gs => Staged c tr s gs) where
  answers := by
    intro tr s s' gs i g visit r signal a h _ hg hpermit hserve _
    obtain rfl : s' = (Server.serve (I := interface) visit s r).state := by rw [hserve]; rfl
    obtain ⟨g', hlead, hstaged⟩ : ∃ g', (closing c).Leads g r a g' ∧
        Staged c (tr ++ [.of i visit s r]) (Server.serve (I := interface) visit s r).state
          (gs.set i g') := by
      match r with
      | .under (.lifecycle id part) =>
        obtain rfl : ((s.lifecycle id).run part).2 = a := by cases hserve; rfl
        exact h.leads_section hg visit hpermit
      | .under (.queue id call) => exact h.leads_queue hg visit a
      | .under (.transaction _ _) | .under .newFlag | .under (.settle _) | .outside (.log _ _) =>
        exact ⟨g, rfl, h.quiet hg visit nofun⟩
      | .outside (.channel _ _) | .notify (.delivery _) _ | .notify (.other _) _ => cases hserve
    rw [Event.of, hserve] at hstaged
    exact ⟨g', hlead, hstaged⟩
  sleeps := by
    intro tr s s' gs i g visit r cond deadline h _ hg hpermit hserve _
    have hinv := h.quiet hg visit (r := r) (by rintro rfl; cases hserve)
    rwa [set_eq_self hg, Event.of, hserve] at hinv
  runs := by
    intro tr s s' gs i g visit r p h _ hg hpermit hserve _
    have hinv := h.quiet hg visit (r := r) (by rintro rfl; cases hserve)
    rw [Event.of, hserve] at hinv
    refine ⟨g, hinv, ?_⟩
    have hattended := attended_of_runs hserve
    cases r with
    | under => exact hattended.elim
    | notify => exact silent_follows hattended hpermit
    | outside call =>
      cases call with
      | channel => exact silent_follows hattended hpermit
      | log => exact hattended.elim

/-! ## Every run -/

/-- A thread beside a consumer. -/
inductive Party (c : Consumer) where
  /-- It makes one call that cancels the consumer. -/
  | cancels (way : Way)
  /-- Anything else, such as deliveries and dequeues, one after another. -/
  | other (program : Action Unit) (silent : Silent c program)

def Party.program : Party c → Action Unit
  | .cancels way => way.action c
  | .other program _ => program

/-- How a thread ends: it is not about to close the queue, and if it cancels
the consumer it has. -/
def Party.Ends (party : Party c) (g : Stage) : Prop :=
  Idle g ∧ ∀ way, party = .cancels way → g.canceled

theorem Party.follows (party : Party c) {g : Stage} (hg : Idle g) :
    party.program.Follows (closing c) (fun _ => party.Ends) g := by
  cases party with
  | cancels way => exact (way.follows hg).mono fun _ _ hover => ⟨hover.2, fun _ _ => hover.1⟩
  | other program silent => exact (silent_follows silent hg).mono fun _ _ hidle => ⟨hidle, nofun⟩

/-- A run of threads beside a new consumer with an open queue; what is in the
queue, and the other objects, are as they may be. -/
def runParties (A : Attendants c fun _ => True) (w : World) (items : List Delivery)
    (parties : List (Party c)) (schedule : List (Machine.Move interface Unit)) :
    History interface (Scene A.toReactions) Unit :=
  (Machine.start (.renewed c.lifecycle { w with queues := w.queues.set c.queue ⟨items, true⟩ })
    (parties.map Party.program)).run schedule

/-- **Every run is staged**, and every thread that has returned has ended as
it should. -/
theorem run_staged (A : Attendants c fun _ => True) (w : World) (items : List Delivery)
    (parties : List (Party c)) (schedule : List (Machine.Move interface Unit)) :
    ∃ gs, Staged c (runParties A w items parties schedule).trace
        (runParties A w items parties schedule).machine.shared gs ∧
      Follow (closing c) (fun i _ g => ∃ party, parties[i]? = some party ∧ party.Ends g)
        (runParties A w items parties schedule).machine.programs gs := by
  have hstart : Staged c [] (.renewed c.lifecycle
      { w with queues := w.queues.set c.queue ⟨items, true⟩ } : Scene A.toReactions)
      (List.replicate parties.length {}) := by
    refine ⟨fun g hg => ?_, ?_, by simp⟩
    · rw [List.eq_of_mem_replicate hg]
      exact nofun
    · rw [Scene.lifecycle_renewed]
      rfl
  have hfollow : Follow (closing c) (fun i _ g => ∃ party, parties[i]? = some party ∧ party.Ends g)
      (parties.map Party.program) (List.replicate parties.length {}) := by
    refine ⟨by simp, fun {i p} hp => ?_⟩
    rw [List.getElem?_map, Option.map_eq_some_iff] at hp
    obtain ⟨party, hparty, rfl⟩ := hp
    have hi : i < parties.length := (List.getElem?_eq_some_iff.mp hparty).1
    refine ⟨{}, by simp [hi], ?_⟩
    exact (party.follows (g := {}) rfl).mono fun _ _ hends => ⟨party, hparty, hends⟩
  exact closing_upholds.run hstart hfollow (fun _ => trivial) schedule

/-- **What it means that cancellations take effect** in a run. -/
structure TakesEffect (parties : List (Party c)) (h : History interface (Scene R) Unit) : Prop where
  /-- Whoever has canceled the consumer leaves it canceled. -/
  canceled : ∀ i way, parties[i]? = some (.cancels way) → (h.machine.result? i).isSome →
    (h.machine.shared.lifecycle c.lifecycle).state = .canceled
  /-- One call has ended the consumer, if it is canceled. -/
  once : (h.trace.filterMap (ended? c)).length =
    if (h.machine.shared.lifecycle c.lifecycle).state = .canceled then 1 else 0
  /-- When this one has returned, the queue is closed. -/
  closes : ∀ i ∈ h.trace.filterMap (ended? c), (h.machine.result? i).isSome →
    (h.machine.shared.queue c.queue).isOpen = false
  /-- So when any call has returned, the queue is closed unless the one that
  has ended the consumer has yet to return. -/
  closed : ∀ i way, parties[i]? = some (.cancels way) → (h.machine.result? i).isSome →
    (h.machine.shared.queue c.queue).isOpen = false ∨
      ∃ j, h.trace.filterMap (ended? c) = [j] ∧ h.machine.result? j = none
  /-- Nobody sleeps on a queue that is closed, and deliveries are refused. -/
  awake : ∀ e ∈ h.trace, ∀ call, e.request = Request.under (.queue c.queue call) →
    (e.before.queue c.queue).isOpen = false → e.answer.isSome
  refused : ∀ i s d a s', (⟨i, s, Request.under (.queue c.queue (.enqueue d)), a, s'⟩ :
      Event interface (Scene R)) ∈ h.trace →
    (s.queue c.queue).isOpen = false → a = some (.error .queueClosed)

/-- **Cancellations take effect**, however many there are, whoever makes them
and whatever the channels answer. -/
theorem takes_effect (A : Attendants c fun _ => True) (w : World) (items : List Delivery)
    (parties : List (Party c)) (schedule : List (Machine.Move interface Unit)) :
    TakesEffect parties (runParties A w items parties schedule) := by
  obtain ⟨gs, hstaged, hfollow⟩ := run_staged A w items parties schedule
  have hcanceled : ∀ i way, parties[i]? = some (.cancels way) →
      ((runParties A w items parties schedule).machine.result? i).isSome →
      ((runParties A w items parties schedule).machine.shared.lifecycle
        c.lifecycle).state = .canceled := by
    intro i way hway hreturned
    obtain ⟨u, hu⟩ := Option.isSome_iff_exists.mp hreturned
    obtain ⟨g, hg, party, hparty, -, hends⟩ := hfollow.result hu
    rw [hway, Option.some_inj] at hparty
    exact hstaged.canceled g (List.mem_of_getElem? hg) (hends way hparty.symm)
  have hcloses : ∀ i ∈ (runParties A w items parties schedule).trace.filterMap (ended? c),
      ((runParties A w items parties schedule).machine.result? i).isSome →
      ((runParties A w items parties schedule).machine.shared.queue c.queue).isOpen = false := by
    intro i hi hreturned
    obtain ⟨u, hu⟩ := Option.isSome_iff_exists.mp hreturned
    obtain ⟨g, hg, party, -, hidle, -⟩ := hfollow.result hu
    rcases hstaged.closes i hi with hclosed | ⟨g', hg', hclosing⟩
    · exact hclosed
    -- a thread that has returned is not about to close the queue
    · rw [hg, Option.some_inj] at hg'
      rw [← hg', hidle] at hclosing
      cases hclosing
  refine
    { canceled := hcanceled
      once := hstaged.ended
      closes := hcloses
      closed := fun i way hway hreturned => ?_
      awake := fun e he call hcall hclosed => ?_
      refused := fun i s d a s' he hclosed => ?_ }
  · have hlength := hstaged.ended
    rw [if_pos (hcanceled i way hway hreturned)] at hlength
    obtain ⟨j, hj⟩ := List.length_eq_one_iff.mp hlength
    cases hresult : (runParties A w items parties schedule).machine.result? j with
    | some u => exact .inl (hcloses j (by simp [hj]) (by rw [hresult]; rfl))
    | none => exact .inr ⟨j, hj, hresult⟩
  · obtain ⟨visit, hevent⟩ := Machine.exists_of_mem_trace he
    rw [hevent, hcall]
    exact isSome_answer_of_closed hclosed call
  · obtain ⟨visit, hevent⟩ := Machine.exists_of_mem_trace he
    simp only [Event.of, Event.mk.injEq, heq_eq_eq, true_and] at hevent
    rw [hevent.1]
    exact enqueue_of_closed hclosed d

/-- A consumer. -/
def consumer : Consumer := ⟨0, 0, 0, .manual⟩

/-- Two calls that cancel it. -/
def rivals : List (Party consumer) := [.cancels .asked, .cancels .asked]

/-- The run in which the second call returns while the first one, which has
ended the consumer, is about to close the queue. -/
def overtaken : History interface
    (Scene (.succeeding trivial : Attendants consumer fun _ => True).toReactions) Unit :=
  runParties (.succeeding trivial) {} [] rivals
    [.advance .longest 0, .advance .longest 0, .advance .longest 1, .advance .longest 1]

/-- **A call that cancels may return before the queue is closed.** -/
theorem not_effective : ¬ ∀ i way, rivals[i]? = some (.cancels way) →
    (overtaken.machine.result? i).isSome →
    (overtaken.machine.shared.queue consumer.queue).isOpen = false := by
  intro h
  have hopen : (overtaken.machine.shared.queue consumer.queue).isOpen = true := by rfl
  have hreturned : (overtaken.machine.result? 1).isSome = true := by rfl
  rw [h 1 .asked rfl hreturned] at hopen
  cases hopen

end MessageIntake.Cancellation
