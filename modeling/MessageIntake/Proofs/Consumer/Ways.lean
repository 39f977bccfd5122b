import MessageIntake.Proofs.Consumer.Cancellation
import MessageIntake.Proofs.Machine.Solo

/-!
# Every way to end a consumer comes to the same

A consumer can be ended in four ways, which go about it differently: the
application asks the broker first, a loss of the transport is recorded
first, and the broker's two reports are only logged. If nobody else moves
meanwhile, each comes to the same end (`end_approaches`): the consumer is
canceled under its tag, its queue is closed with the deliveries that it
had, and nothing else has changed.

A way may lead through several steps, and a channel that is asked to
cancel may end the consumer itself before it answers. What all of them
keep is the end that they lead to: `Toward` says of a step that what is
left to do comes to the same as before.
-/

namespace MessageIntake.Ways

open Client
open Cancellation (Way)

variable {R : Reactions} {c : Consumer} {α β : Type}

/-! ## What an end leaves -/

/-- Apart from the queue of a consumer and from its lifecycle, of which only
the tag counts, nothing has changed. -/
structure Apart (c : Consumer) (w w' : World) : Prop where
  queues : ∀ id ≠ c.queue, w'.queues.get id = w.queues.get id
  lifecycles : ∀ id ≠ c.lifecycle, w'.lifecycles.get id = w.lifecycles.get id
  tag : (w'.lifecycles.get c.lifecycle).consumerTag = (w.lifecycles.get c.lifecycle).consumerTag
  transactions : w'.transactions = w.transactions
  settled : w'.settled = w.settled
  nextFlag : w'.nextFlag = w.nextFlag

/-- Whether the consumer is canceled. -/
def Canceled (c : Consumer) (w : World) : Prop :=
  (w.lifecycles.get c.lifecycle).state = .canceled

instance : Decidable (Canceled c w) := inferInstanceAs (Decidable (_ = _))

/-- **A consumer has been ended**: it is canceled, and its queue is closed with
the deliveries that it had. Where the consumer was canceled before, the queue
is left as it is. -/
structure Ended (c : Consumer) (w w' : World) : Prop extends Apart c w w' where
  canceled : Canceled c w'
  queue : w'.queues.get c.queue =
    if Canceled c w then w.queues.get c.queue else ⟨(w.queues.get c.queue).items, false⟩

/-- Nothing has changed but flags of the consumer, or how it stands before it
ends. -/
structure Kept (c : Consumer) (w w' : World) : Prop extends Apart c w w' where
  canceled_iff : Canceled c w' ↔ Canceled c w
  queue : w'.queues.get c.queue = w.queues.get c.queue

/-- The conditions whose sleepers are woken by whoever ends a consumer. -/
def wakes (c : Consumer) (w : World) : List Condition :=
  if Canceled c w then [] else if (w.queues.get c.queue).isOpen then [c.queue] else []

/-- **A step toward the end of a consumer**: what is left to wake, and the end
that it comes to, are as before. -/
structure Toward (c : Consumer) (w : World) (woken : List Condition) (w' : World) : Prop where
  wakes : woken ++ wakes c w' = wakes c w
  ended : ∀ w'', Ended c w' w'' → Ended c w w''

section Ends

variable {w w' w'' : World} {woken woken' : List Condition}

theorem Apart.refl (c : Consumer) (w : World) : Apart c w w :=
  ⟨fun _ _ => rfl, fun _ _ => rfl, rfl, rfl, rfl, rfl⟩

theorem Apart.trans (h : Apart c w w') (h' : Apart c w' w'') : Apart c w w'' where
  queues id hid := (h'.queues id hid).trans (h.queues id hid)
  lifecycles id hid := (h'.lifecycles id hid).trans (h.lifecycles id hid)
  tag := h'.tag.trans h.tag
  transactions := h'.transactions.trans h.transactions
  settled := h'.settled.trans h.settled
  nextFlag := h'.nextFlag.trans h.nextFlag

theorem Kept.refl (c : Consumer) (w : World) : Kept c w w :=
  ⟨.refl c w, .rfl, rfl⟩

theorem Kept.toward (h : Kept c w w') : Toward c w [] w' where
  wakes := by simp only [Ways.wakes, h.canceled_iff, h.queue, List.nil_append]
  ended w'' h' := by
    refine ⟨h.toApart.trans h'.toApart, h'.canceled, ?_⟩
    simp only [h'.queue, h.canceled_iff, h.queue]

theorem Ended.toward (h : Ended c w w') : Toward c w (wakes c w) w' where
  wakes := by
    have hnone : Ways.wakes c w' = [] := if_pos h.canceled
    rw [hnone, List.append_nil]
  ended w'' h' := by
    refine ⟨h.toApart.trans h'.toApart, h'.canceled, ?_⟩
    rw [h'.queue, if_pos h.canceled, h.queue]

theorem Toward.trans (h : Toward c w woken w') (h' : Toward c w' woken' w'') :
    Toward c w (woken ++ woken') w'' where
  wakes := by rw [List.append_assoc, h'.wakes, h.wakes]
  ended w''' hended := h.ended _ (h'.ended _ hended)

theorem Ended.refl (h : Canceled c w) : Ended c w w :=
  ⟨.refl c w, h, (if_pos h).symm⟩

/-- A step that has canceled the consumer has come to the end. -/
theorem Toward.ended_of_canceled (h : Toward c w woken w') (hcanceled : Canceled c w') :
    woken = Ways.wakes c w ∧ Ended c w w' := by
  refine ⟨?_, h.ended w' (.refl hcanceled)⟩
  have hnone : Ways.wakes c w' = [] := if_pos hcanceled
  rw [← h.wakes, hnone, List.append_nil]

end Ends

/-! ## Programs that lead to the end -/

/-- The call on a channel that a request is. -/
def called? : Request → Option (ChannelId × Channel.Call)
  | .outside (.channel id call) => some (id, call)
  | _ => none

/-- **A program that leads toward the end of a consumer** when it moves alone:
it makes the calls `called` on channels, and where it ends `Post` holds. -/
def Approaches (c : Consumer) (now : Instant) (s : Scene R) (p : Action α)
    (called : List (ChannelId × Channel.Call)) (Post : Scene R → α → Prop) : Prop :=
  ∃ woken asked s' a, p.Alone now s woken asked s' a ∧ Toward c s.world woken s'.world ∧
    asked.filterMap called? = called ∧ Post s' a

section Approaches

variable {now : Instant} {s : Scene R} {p : Action α} {called called' : List (ChannelId × Channel.Call)}
  {Post : Scene R → α → Prop} {Post' : Scene R → β → Prop}

theorem Approaches.done {a : α} (h : Post s a) : Approaches c now s (.done a) [] Post :=
  ⟨[], [], s, a, .done a s, (Kept.refl c s.world).toward, rfl, h⟩

theorem Approaches.bind {f : α → Action β} (h : Approaches c now s p called Post)
    (hf : ∀ s' a, Post s' a → Approaches c now s' (f a) called' Post') :
    Approaches c now s (p.bind f) (called ++ called') Post' := by
  obtain ⟨woken, asked, s', a, halone, htoward, rfl, hpost⟩ := h
  obtain ⟨woken', asked', s'', b, halone', htoward', rfl, hpost'⟩ := hf s' a hpost
  exact ⟨_, _, s'', b, halone.bind halone', htoward.trans htoward', List.filterMap_append, hpost'⟩

/-- A request that is answered at once, and wakes nobody. -/
theorem Approaches.ask {r : Request} {next : r.Answer → Action α} {s' : Scene R} {answer : r.Answer}
    (hserve : Server.serve (I := interface) ⟨now, now, false⟩ s r = .answers s' .nobody answer)
    (hkept : Kept c s.world s'.world) (hr : called? r = none)
    (h : Approaches c now s' (next answer) called Post) :
    Approaches c now s (.ask r next) called Post := by
  obtain ⟨woken, asked, s'', a, halone, htoward, rfl, hpost⟩ := h
  exact ⟨woken, r :: asked, s'', a, .answers hserve halone, hkept.toward.trans htoward,
    List.filterMap_cons_none hr, hpost⟩

/-- A call on a channel that reacts toward the end. -/
theorem Approaches.channel {id : ChannelId} {call : Channel.Call}
    {Post : Scene R → Result Unit → Prop}
    (h : Approaches c now { s with turn := s.turn + 1 } (R.channel s.turn id call) called Post) :
    Approaches c now s (Client.channel id call) ((id, call) :: called) Post := by
  obtain ⟨woken, asked, s', a, halone, htoward, rfl, hpost⟩ := h
  refine ⟨woken, .outside (.channel id call) :: asked, s', a, .runs rfl ?_, htoward, rfl, hpost⟩
  rwa [Program.bind_done]

end Approaches

/-! ## Ending a consumer -/

section Ending

variable {now : Instant} {s : Scene R}

/-- The scene after a section of the consumer's lifecycle. -/
def after (c : Consumer) (part : Lifecycle.Section) (s : Scene R) : Scene R :=
  { s with world := { s.world with
      lifecycles := s.world.lifecycles.set c.lifecycle ((s.lifecycle c.lifecycle).run part).1 } }

theorem serve_after (visit : Visit) (c : Consumer) (part : Lifecycle.Section) (s : Scene R) :
    Server.serve (I := interface) visit s (.under (.lifecycle c.lifecycle part)) =
      .answers (after c part s) .nobody ((s.lifecycle c.lifecycle).run part).2 := rfl

theorem lifecycle_after (c : Consumer) (part : Lifecycle.Section) (s : Scene R) :
    (after c part s).lifecycle c.lifecycle = ((s.lifecycle c.lifecycle).run part).1 :=
  Store.get_set_self _ _ _

/-- A section that does not end the consumer. -/
theorem kept_after {part : Lifecycle.Section}
    (htag : ((s.lifecycle c.lifecycle).run part).1.consumerTag =
      (s.lifecycle c.lifecycle).consumerTag)
    (hstate : ((s.lifecycle c.lifecycle).run part).1.state = .canceled ↔ Canceled c s.world) :
    Kept c s.world (after c part s).world where
  queues _ _ := rfl
  lifecycles _ hid := Store.get_set_of_ne _ hid _
  tag := (congrArg Lifecycle.consumerTag (lifecycle_after c part s)).trans htag
  transactions := rfl
  settled := rfl
  nextFlag := rfl
  canceled_iff := by
    rw [← hstate, ← lifecycle_after c part s]
    rfl
  queue := rfl

/-- A look at the queue. -/
theorem kept_look (c : Consumer) (now : Instant) (s : Scene R) :
    Kept c s.world (Server.serve (I := interface) ⟨now, now, false⟩ s
      (.under (.queue c.queue .look))).state.world where
  queues _ hid := Store.get_set_of_ne _ hid _
  lifecycles _ _ := rfl
  tag := rfl
  transactions := rfl
  settled := rfl
  nextFlag := rfl
  canceled_iff := .rfl
  queue := Store.get_set_self _ _ _

/-- To close a queue is to wake its sleepers, if it was open. -/
theorem serve_close_eq (visit : Visit) (s : Scene R) (id : QueueId) :
    Server.serve (I := interface) visit s (.under (.queue id .close)) =
      .answers { s with world := { s.world with
          queues := s.world.queues.set id ⟨(s.queue id).items, false⟩ } }
        (if (s.queue id).isOpen then .all id else .nobody) (s.queue id).isOpen := by
  have hserve : Server.serve (I := interface) visit s (.under (.queue id .close)) =
      ((s.queue id).pass visit .close).served id fun q =>
        { s with world := { s.world with queues := s.world.queues.set id q } } := rfl
  rw [hserve]
  obtain ⟨items, isOpen⟩ := s.queue id
  cases isOpen <;> rfl

/-- To end a consumer is to cancel it and, unless it was canceled before, to
close its queue; the rest is for the log. -/
theorem exists_onCancel_eq (c : Consumer) :
    ∃ text : ConsumerState × Option String → Nat × Bool → String, c.onCancel =
      (Client.lifecycle c.lifecycle .cancel).bind fun found =>
        if found.1 = .canceled then .done ()
        else (Client.queue c.queue .close).bind fun _ =>
          (Client.queue c.queue .look).bind fun looked => log .info (text found looked) :=
  ⟨_, rfl⟩

/-- The scene after the consumer was canceled and its queue closed. -/
def concluded (c : Consumer) (s : Scene R) : Scene R :=
  { after c .cancel s with world := { (after c .cancel s).world with
      queues := s.world.queues.set c.queue ⟨(s.queue c.queue).items, false⟩ } }

theorem ended_concluded (h : ¬ Canceled c s.world) : Ended c s.world (concluded c s).world where
  queues _ hid := Store.get_set_of_ne _ hid _
  lifecycles _ hid := Store.get_set_of_ne _ hid _
  tag := (congrArg Lifecycle.consumerTag (lifecycle_after c .cancel s)).trans rfl
  transactions := rfl
  settled := rfl
  nextFlag := rfl
  canceled := congrArg Lifecycle.state (lifecycle_after c .cancel s)
  queue := by
    rw [if_neg h]
    exact Store.get_set_self _ _ _

/-- **Whoever ends a consumer closes its queue**, unless it was canceled
before. -/
theorem onCancel_approaches (c : Consumer) (now : Instant) (s : Scene R) :
    Approaches c now s c.onCancel [] fun s' _ => Canceled c s'.world := by
  obtain ⟨text, heq⟩ := exists_onCancel_eq c
  have hserve := serve_after ⟨now, now, false⟩ c .cancel s
  rw [heq]
  by_cases hcanceled : Canceled c s.world
  · have hfound : ((s.lifecycle c.lifecycle).run .cancel).2.1 = .canceled := hcanceled
    have hkept : Kept c s.world (after c .cancel s).world :=
      kept_after rfl (iff_of_true rfl hcanceled)
    refine .ask hserve hkept rfl ?_
    rw [Program.done_bind, if_pos hfound]
    exact .done (hkept.canceled_iff.mpr hcanceled)
  · have hfound : ¬ ((s.lifecycle c.lifecycle).run .cancel).2.1 = .canceled := hcanceled
    have hrest : Approaches c now (concluded c s) ((Client.queue c.queue .look).bind fun looked =>
        log .info (text ((s.lifecycle c.lifecycle).run .cancel).2 looked))
        [] fun s' _ => Canceled c s'.world := by
      have hlook := kept_look c now (concluded c s)
      refine .ask rfl hlook rfl (.ask rfl (.refl c _) rfl (.done ?_))
      exact hlook.canceled_iff.mpr (ended_concluded hcanceled).canceled
    obtain ⟨woken, asked, s', a, halone, htoward, hasked, hpost⟩ := hrest
    refine ⟨wakes c s.world ++ woken, .under (.lifecycle c.lifecycle .cancel) ::
      .under (.queue c.queue .close) :: asked, s', a, .answers hserve ?_,
      (ended_concluded hcanceled).toward.trans htoward, hasked, hpost⟩
    rw [Program.done_bind, if_neg hfound]
    have hclose := serve_close_eq ⟨now, now, false⟩ (after c .cancel s) c.queue
    by_cases hopen : ((after c .cancel s).queue c.queue).isOpen
    · have hwakes : wakes c s.world = [c.queue] := (if_neg hcanceled).trans (if_pos hopen)
      rw [if_pos hopen] at hclose
      rw [hwakes]
      exact .wakes hclose halone
    · have hwakes : wakes c s.world = [] := (if_neg hcanceled).trans (if_neg hopen)
      rw [if_neg hopen] at hclose
      rw [hwakes]
      exact .answers hclose halone

/-- The same, and then an answer. -/
theorem onCancel_approaches_done (c : Consumer) (now : Instant) (s : Scene R) (answer : α) :
    Approaches c now s (c.onCancel.bind fun _ => .done answer) []
      fun s' _ => Canceled c s'.world :=
  (onCancel_approaches c now s).bind fun _ _ hpost => .done hpost

/-! ### The ways to end it -/

theorem exists_shutdown_eq (c : Consumer) (reason : ShutdownReason) :
    ∃ level text, c.shutdown reason = (Client.lifecycle c.lifecycle (.loseTransport reason)).bind
      fun counts => if counts then (log level text).bind fun _ => c.onCancel else .done () := by
  by_cases hclean : reason.isClean
  · refine ⟨.info, s!"consumer transport closed: {reason.message}", ?_⟩
    simp only [Consumer.shutdown, hclean, if_true]
    rfl
  · refine ⟨.warn, s!"consumer transport lost: {reason.message}", ?_⟩
    simp only [Consumer.shutdown, hclean]
    rfl

/-- A loss is reported to a consumer that has not ended, and ends it. -/
theorem shutdown_approaches (c : Consumer) (now : Instant) (s : Scene R) (reason : ShutdownReason) :
    Approaches c now s (c.shutdown reason) [] fun s' _ => Canceled c s'.world := by
  obtain ⟨level, text, heq⟩ := exists_shutdown_eq c reason
  have hserve := serve_after ⟨now, now, false⟩ c (.loseTransport reason) s
  rw [heq]
  by_cases hcanceled : Canceled c s.world
  · have hterminal : (s.lifecycle c.lifecycle).state.isTerminal := decide_eq_true hcanceled
    have hrun : (s.lifecycle c.lifecycle).run (.loseTransport reason) =
        (s.lifecycle c.lifecycle, false) := if_pos hterminal
    have hfound : ((s.lifecycle c.lifecycle).run (.loseTransport reason)).2 = false := by rw [hrun]
    have hkept : Kept c s.world (after c (.loseTransport reason) s).world := by
      refine kept_after (by rw [hrun]) ?_
      rw [hrun]
      rfl
    refine .ask hserve hkept rfl ?_
    rw [hfound]
    exact .done (hkept.canceled_iff.mpr hcanceled)
  · have hterminal : ¬ (s.lifecycle c.lifecycle).state.isTerminal = true :=
      fun hterminal => hcanceled (of_decide_eq_true hterminal)
    have hrun : (s.lifecycle c.lifecycle).run (.loseTransport reason) = _ := if_neg hterminal
    have hfound : ((s.lifecycle c.lifecycle).run (.loseTransport reason)).2 = true := by rw [hrun]
    have hkept : Kept c s.world (after c (.loseTransport reason) s).world := by
      refine kept_after (by rw [hrun]) ?_
      rw [hrun]
      exact iff_of_false ConsumerState.noConfusion hcanceled
    refine .ask hserve hkept rfl ?_
    rw [hfound]
    exact .ask rfl (.refl c _) rfl (onCancel_approaches c now _)

/-- The broker would not be asked to cancel. -/
def Unasked (c : Consumer) (s : Scene R) : Prop :=
  ((s.lifecycle c.lifecycle).run .requestCancel).2 = none

theorem unasked_of_canceled (h : Canceled c s.world) : Unasked c s := by
  have hstate : (s.lifecycle c.lifecycle).state = .canceled := h
  rw [Unasked, Lifecycle.run, if_neg fun hconsuming => by rw [hstate] at hconsuming; cases hconsuming.1]

/-- Once the broker was asked it is not asked again. -/
theorem unasked_after_request (c : Consumer) (s : Scene R) : Unasked c (after c .requestCancel s) := by
  rw [Unasked, lifecycle_after]
  simp only [Lifecycle.run]
  split <;> simp_all

theorem kept_requestCancel (c : Consumer) (s : Scene R) :
    Kept c s.world (after c .requestCancel s).world := by
  refine kept_after ?_ ?_
  · rw [Lifecycle.run]
    split <;> rfl
  · rw [Lifecycle.run]
    split <;> rfl

/-- Where the broker would not be asked, no way to end a consumer asks it. -/
theorem way_approaches (way : Way) (h : Unasked c s) :
    Approaches c now s (way.action c) [] fun s' _ => Canceled c s'.world := by
  cases way with
  | asked =>
    refine .ask (serve_after _ c .requestCancel s) (kept_requestCancel c s) rfl ?_
    rw [h]
    exact (onCancel_approaches_done c now _ _).bind fun _ _ hpost => .done hpost
  | byBroker tag | confirmed tag => exact .ask rfl (.refl c _) rfl (onCancel_approaches c now s)
  | lost reason => exact shutdown_approaches c now s reason

/-- Nor do any number of ways, one after another. -/
theorem ways_approach (ways : List Way) (h : Unasked c s) :
    Approaches c now s (Program.inTurn (ways.map (Way.action c))) [] fun s' _ => Unasked c s' := by
  induction ways generalizing s with
  | nil => exact .done h
  | cons way rest ih =>
    refine (way_approaches way h).bind fun s' a hcanceled => ?_
    have hrest := ih (unasked_of_canceled hcanceled)
    exact hrest.bind fun _ _ hunasked => .done hunasked

/-! ### The reaction of the channel -/

/-- How a channel reacts to being asked to cancel: the consumer may be ended in
other ways before it answers. -/
structure Reaction where
  meanwhile : List Way
  answer : Result Unit

/-- What happens when the channel is called. -/
def Reaction.action (c : Consumer) (x : Reaction) : Action (Result Unit) :=
  (Program.inTurn (x.meanwhile.map (Way.action c))).bind fun _ => .done x.answer

/-- Channels that react so. -/
def Reaction.reactions (c : Consumer) (x : Reaction) : Reactions where
  channel _ _ _ := x.action c
  participant _ _ _ := .done (.ok ())

/-- The calls on channels that a way to end a consumer makes. -/
def calls (c : Consumer) (w : World) : Way → List (ChannelId × Channel.Call)
  | .asked =>
    match ((w.lifecycles.get c.lifecycle).run .requestCancel).2 with
    | some tag => [(c.channel, .cancel tag)]
    | none => []
  | .byBroker _ | .confirmed _ | .lost _ => []

theorem reaction_approaches (x : Reaction) (h : Unasked c s) :
    Approaches c now s (x.action c) [] fun _ _ => True :=
  (ways_approach x.meanwhile h).bind fun _ _ _ => .done trivial

/-- The broker is asked, and the consumer is ended whatever it does. -/
theorem request_approaches (x : Reaction) {s : Scene (x.reactions c)} (h : Unasked c s)
    (tag : String) :
    Approaches c now s ((Client.channel c.channel (.cancel tag)).bind fun answer =>
        c.onCancel.bind fun _ => .done answer)
      [(c.channel, .cancel tag)] fun s' _ => Canceled c s'.world := by
  let called : Scene (x.reactions c) := ⟨s.world, s.turn + 1⟩
  have hreaction : Approaches c now called (x.action c) [] fun _ _ => True :=
    reaction_approaches x h
  exact (Approaches.channel hreaction).bind fun s' answer _ => onCancel_approaches_done c now s' answer

/-- **Every way leads to the end of a consumer**, however the channel reacts;
only the one that is asked for calls it, once at most. -/
theorem end_approaches (now : Instant) (x : Reaction) (s : Scene (x.reactions c)) (way : Way) :
    Approaches c now s (way.action c) (calls c s.world way) fun s' _ => Canceled c s'.world := by
  cases way with
  | asked =>
    cases hasked : ((s.world.lifecycles.get c.lifecycle).run .requestCancel).2 with
    | none =>
      rw [calls, hasked]
      exact way_approaches .asked hasked
    | some tag =>
      have hanswer : ((s.lifecycle c.lifecycle).run .requestCancel).2 = some tag := hasked
      rw [calls, hasked]
      refine .ask (serve_after _ c .requestCancel s) (kept_requestCancel c s) rfl ?_
      rw [hanswer]
      exact (request_approaches x (unasked_after_request c s) tag).bind
        fun _ _ hpost => .done hpost
  | byBroker tag | confirmed tag => exact .ask rfl (.refl c _) rfl (onCancel_approaches c now s)
  | lost reason => exact shutdown_approaches c now s reason

end Ending

end MessageIntake.Ways
