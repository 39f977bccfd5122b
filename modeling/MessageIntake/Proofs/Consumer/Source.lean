import MessageIntake.Proofs.Consumer.Errand
import MessageIntake.Proofs.Consumer.Handling

/-!
# Where the deliveries of a shared queue are settled

Consumers with channels of their own may share a queue, so a delivery
that one of them has buffered may be taken through another. In every run
of errands, and whatever the channels answer, a delivery is settled on
the channel of the consumer that it was taken through
(`settles_for_taker`). That is the channel that it came from if the
consumers of one queue have one channel, and need not be otherwise
(`not_settlesAtSource`).

`Traced` is the invariant: what a thread has in stock, what is enlisted
and what was settled was taken, under this channel, and what is buffered
was brought.
-/

namespace MessageIntake

namespace Queue

variable {α : Type} {q : Queue α} {c : (interface α).Request} {item : α} {i : Nat} {visit : Visit}

theorem takes_of_handedOut (h : handedOut? (.of i visit q c) = some item) : Call.takes c := by
  rw [event_of] at h
  cases c with
  | enqueue | waitForMessage | close | look => cases h
  | dequeue | tryDequeue | dequeueNoWait | dequeueTimeout => rfl

/-- What an answer gives has left the queue. -/
theorem handedOut?_of_given {call : Call α} {answer : call.Answer}
    (h : Hand.given call answer = some item) (before after : Queue α) :
    handedOut? (⟨i, before, call, some answer, after⟩ : Event (interface α) (Queue α)) =
      some item := by
  cases call with
  | dequeue | tryDequeue | dequeueTimeout => cases answer <;> exact h
  | enqueue | dequeueNoWait | waitForMessage | close | look => cases h

end Queue

namespace Source

open Client Transaction Settlement

variable {S : Surroundings}

/-! ## What is read off a run -/

/-- The delivery that an event puts into a queue. -/
def brought? : Event interface (Setting S) → Option (QueueId × Delivery)
  | ⟨i, before, Request.under (.queue id call), answer, after⟩ =>
    (Queue.accepted? ⟨i, before.world.queues.get id, call, answer,
      after.world.queues.get id⟩).map fun d => (id, d)
  | _ => none

/-- The channels of the consumers that threads take deliveries through. -/
def channelOf (errands : List Errand) (i : Nat) : Option ChannelId :=
  errands[i]?.bind Errand.channel?

/-- A delivery was brought to a consumer and is in its queue since. -/
def Brought (errands : List Errand) (trace : Trace S) (c : Consumer) (d : Delivery) : Prop :=
  ∃ e ∈ trace, errands[e.thread]? = some (.deliver c d) ∧ brought? e = some (c.queue, d)

/-- A delivery was taken through a consumer. -/
def Taken (errands : List Errand) (trace : Trace S) (c : Consumer) (d : Delivery) : Prop :=
  ∃ e ∈ trace, taken? e = some d ∧ ∃ how, errands[e.thread]? = some (.take how) ∧ how.consumer = c

/-- **Every delivery that is taken was brought** to a consumer of the same
queue. -/
def TakesFromQueue (errands : List Errand) : Trace S → Prop :=
  AtEach fun before e => ∀ d, taken? e = some d →
    ∃ how source, errands[e.thread]? = some (.take how) ∧ source.queue = how.consumer.queue ∧
      Brought errands before source d

/-- **Every call that settles a delivery is for one that was taken**, on
the channel of the consumer that it was taken through. -/
def SettlesAtTaker (errands : List Errand) : Trace S → Prop :=
  AtEach fun before e => ∀ settlement, settlement? e = some settlement →
    ∃ c d, Taken errands before c d ∧ settledKey settlement = (c.channel, d.tag)

/-- **Every call that settles a delivery is on the channel of the consumer
that the delivery was brought to.** -/
def SettlesAtSource (errands : List Errand) : Trace S → Prop :=
  AtEach fun before e => ∀ settlement, settlement? e = some settlement →
    ∃ c d source, Taken errands before c d ∧ Brought errands before source d ∧
      source.queue = c.queue ∧ settledKey settlement = (source.channel, d.tag)

/-! ## One step of a queue -/

section Steps

variable {i : Nat} {visit : Visit} {s : Setting S}

/-- A call of a queue is one pass of it. -/
theorem serve_queue (visit : Visit) (s : Setting S) (id : QueueId) (call : Queue.Call Delivery) :
    (Server.serve (I := interface) visit s (.under (.queue id call))).answer? =
        ((s.world.queues.get id).pass visit call).turn.answer? ∧
      (Server.serve (I := interface) visit s (.under (.queue id call))).state.world.queues =
        s.world.queues.set id ((s.world.queues.get id).pass visit call).queue := by
  simp only [Server.serve, World.serve, Queue.Pass.served]
  cases ((s.world.queues.get id).pass visit call).turn <;> exact ⟨rfl, rfl⟩

theorem taken?_of_queue (id : QueueId) (call : Queue.Call Delivery) :
    taken? (Event.of (I := interface) i visit s (.under (.queue id call))) =
      Queue.handedOut? (.of i visit (s.world.queues.get id) call) := by
  obtain ⟨hanswer, hqueues⟩ := serve_queue visit s id call
  rw [Queue.event_of]
  simp only [Event.of, taken?, hanswer, hqueues, Store.get_set_self]

theorem brought?_of_queue (id : QueueId) (call : Queue.Call Delivery) :
    brought? (Event.of (I := interface) i visit s (.under (.queue id call))) =
      (Queue.accepted? (.of i visit (s.world.queues.get id) call)).map fun d => (id, d) := by
  obtain ⟨hanswer, hqueues⟩ := serve_queue visit s id call
  rw [Queue.event_of]
  simp only [Event.of, brought?, hanswer, hqueues, Store.get_set_self]

end Steps

/-! ## The invariant -/

/-- **Everything is traced to where a delivery was taken**, and what is
taken to where it was brought. -/
structure Traced (errands : List Errand) (tr : Trace S) (s : Setting S) (gs : List Stock) :
    Prop where
  /-- The threads are on their errands. -/
  errand : ∀ (i : Nat) (g : Stock), gs[i]? = some g → errands[i]? = some g.errand
  stock : ∀ (i : Nat) (g : Stock), gs[i]? = some g → g.keys ⊆ takenKeys (channelOf errands) tr
  enlisted : ∀ t, enlistedKeys (s.transaction t).participants ⊆ takenKeys (channelOf errands) tr
  buffered : ∀ id, ∀ d ∈ (s.world.queues.get id).items,
    ∃ source, source.queue = id ∧ Brought errands tr source d
  taken : TakesFromQueue errands tr
  settled : AtEach (fun before e => ∀ settlement, settlement? e = some settlement →
    settledKey settlement ∈ takenKeys (channelOf errands) before) tr

namespace Traced

variable {errands : List Errand} {tr : Trace S} {s : Setting S} {gs : List Stock}

/-- Nothing has been brought or enlisted in a new client. -/
theorem start (errands : List Errand) :
    Traced errands ([] : Trace S) ⟨{}, 0⟩ (errands.map (⟨·, []⟩)) where
  errand := by
    intro i g hg
    rw [List.getElem?_map, Option.map_eq_some_iff] at hg
    obtain ⟨errand, herrand, rfl⟩ := hg
    exact herrand
  stock := by
    intro i g hg
    rw [List.getElem?_map, Option.map_eq_some_iff] at hg
    obtain ⟨errand, -, rfl⟩ := hg
    exact List.nil_subset _
  enlisted := fun t => List.nil_subset _
  buffered := fun id d hd => by cases hd
  taken := atEach_nil _
  settled := atEach_nil _

theorem subset_concat {channels : Nat → Option ChannelId} {keys : List DeliveryKey}
    (h : keys ⊆ takenKeys channels tr) (e : Event interface (Setting S)) :
    keys ⊆ takenKeys channels (tr ++ [e]) := by
  refine List.Subset.trans h ?_
  rw [takenKeys, takenKeys, List.filterMap_append]
  exact List.subset_append_left _ _

section Serve

variable {i : Nat} {g : Stock} {r : Request} {visit : Visit}

/-- What is enlisted after an event was enlisted before it, or was in
stock. -/
theorem enlistedKeys_serve (hallows : g.Allows r) (visit : Visit) (s : Setting S)
    (t : TransactionId) :
    enlistedKeys ((Server.serve (I := interface) visit s r).state.transaction t).participants ⊆
      enlistedKeys (s.transaction t).participants ++ g.keys := by
  have hsame : enlistedKeys (s.transaction t).participants ⊆
      enlistedKeys (s.transaction t).participants ++ g.keys := List.subset_append_left _ _
  rcases r.cases_of t with helse | ⟨part, rfl⟩ | ⟨p, notice, rfl⟩
  · rw [helse.transaction_eq visit s]
    exact hsame
  · obtain ⟨s', hs', hserve⟩ := serve_section visit s t part
    rw [hserve, Served.state, hs']
    cases part with
    | ensureActive | look | finish => exact hsame
    | begin | abandon =>
      simp only [Transaction.run]
      split
      · exact List.nil_subset _
      · exact hsame
    | enlist p =>
      simp only [Transaction.run]
      split
      · rw [enlistedKeys_append]
        refine List.append_subset.mpr ⟨hsame, ?_⟩
        cases p with
        | delivery e =>
          intro key hkey
          obtain rfl : key = e.key := List.mem_singleton.mp hkey
          exact List.mem_append_right _ hallows
        | other => exact List.nil_subset _
      · exact hsame
  · cases p <;> exact hsame

/-- What an answer brings into stock was taken by its event, or is
enlisted. -/
theorem news_subset (h : Traced errands tr s gs) (hg : gs[i]? = some g) {a : r.Answer}
    (ha : (Server.serve (I := interface) visit s r).answer? = some a) :
    g.news r a ⊆ takenKeys (channelOf errands) (tr ++ [.of i visit s r]) := by
  match r with
  | .under (.queue id call) =>
    intro key hkey
    have hchannel : channelOf errands i = g.errand.channel? := by
      rw [channelOf, h.errand i g hg, Option.bind_some]
    simp only [Stock.news, Option.mem_toList, Option.bind_eq_some_iff, Option.map_eq_some_iff]
      at hkey
    obtain ⟨channel, hchannel', d, hgiven, rfl⟩ := hkey
    have htaken : taken? (Event.of (I := interface) i visit s (.under (.queue id call))) =
        some d := by
      rw [taken?_of_queue, Queue.event_of, ← (serve_queue visit s id call).1, ha]
      exact Queue.handedOut?_of_given hgiven _ _
    refine List.mem_filterMap.mpr ⟨_, List.mem_append_right _ List.mem_cons_self, ?_⟩
    rw [takenKey?, htaken, Option.bind_some]
    show (channelOf errands i).map _ = _
    rw [hchannel, hchannel', Option.map_some]
  | .under (.transaction t .begin) =>
    cases a with
    | error => exact List.nil_subset _
    | ok all =>
      refine subset_concat (List.Subset.trans ?_ (h.enlisted t)) _
      obtain ⟨s', -, hserve⟩ := serve_section visit s t .begin
      have hrun : ((s.transaction t).run .begin).2 = .ok all := by
        rw [hserve] at ha
        exact Option.some_inj.mp ha
      simp only [Transaction.run] at hrun
      split at hrun
      · cases hrun
        exact List.Subset.refl _
      · cases hrun
  | .under (.transaction t .abandon) =>
    refine subset_concat (List.Subset.trans ?_ (h.enlisted t)) _
    obtain ⟨s', -, hserve⟩ := serve_section visit s t .abandon
    have hrun : ((s.transaction t).run .abandon).2 = a := by
      rw [hserve] at ha
      exact Option.some_inj.mp ha
    simp only [Transaction.run] at hrun
    split at hrun
    · cases hrun
      exact List.Subset.refl _
    · cases hrun
      exact List.nil_subset _
  | .under (.transaction _ .ensureActive) | .under (.transaction _ (.enlist _))
  | .under (.transaction _ (.finish _)) | .under (.transaction _ .look)
  | .under (.lifecycle _ _) | .under .newFlag | .under (.settle _) | .outside _ | .notify _ _ =>
    exact List.nil_subset _

/-- What is taken was buffered in the queue of the consumer it is taken
through. -/
theorem exists_of_taken (hallows : g.Allows r) {d : Delivery}
    (hd : taken? (Event.of (I := interface) i visit s r) = some d) :
    ∃ how, g.errand = .take how ∧ d ∈ (s.world.queues.get how.consumer.queue).items := by
  match r with
  | .under (.queue id call) =>
    rw [taken?_of_queue] at hd
    have hmem := Queue.mem_items_of_handedOut hd
    have htakes := Queue.takes_of_handedOut hd
    have hhow : ∃ how, g.errand = .take how ∧ how.consumer.queue = id := by
      cases call with
      | enqueue => cases htakes
      | _ => exact hallows htakes
    obtain ⟨how, herrand, rfl⟩ := hhow
    exact ⟨how, herrand, hmem⟩
  | .under (.lifecycle _ _) | .under (.transaction _ _) | .under .newFlag | .under (.settle _)
  | .outside _ | .notify _ _ => cases hd

/-- What is buffered after an event was buffered before it, or is brought
by it. -/
theorem buffered_or_brought (hallows : g.Allows r) {id : QueueId} {d : Delivery}
    (hd : d ∈ ((Server.serve (I := interface) visit s r).state.world.queues.get id).items) :
    d ∈ (s.world.queues.get id).items ∨
      ∃ source, g.errand = .deliver source d ∧ source.queue = id ∧
        brought? (Event.of (I := interface) i visit s r) = some (id, d) := by
  match r with
  | .under (.queue id' call) =>
    rw [(serve_queue visit s id' call).2, Store.get_set] at hd
    by_cases hid : id = id'
    · subst hid
      rw [if_pos rfl] at hd
      have hpass : d ∈ (Event.of (I := Queue.interface Delivery) i visit
          (s.world.queues.get id) call).after.items := by
        rw [Queue.event_of]
        exact hd
      refine (Queue.mem_items_or_accepted hpass).imp_right fun haccepted => ?_
      obtain rfl := Queue.eq_enqueue_of_accepted haccepted
      obtain ⟨source, herrand, hqueue⟩ := hallows
      exact ⟨source, herrand, hqueue, by rw [brought?_of_queue, haccepted, Option.map_some]⟩
    · rw [if_neg hid] at hd
      exact .inl hd
  | .under (.lifecycle _ _) | .under (.transaction _ _) | .under .newFlag | .under (.settle _)
  | .outside _ | .notify (.delivery _) _ | .notify (.other _) _ => exact .inl hd

theorem settledKey_mem (hallows : g.Allows r) {x : ChannelId × Channel.Call}
    (hx : settlement? (Event.of (I := interface) i visit s r) = some x) :
    settledKey x ∈ g.keys := by
  match r with
  | .outside (.channel id call) =>
    obtain ⟨hsettles, hx⟩ : call.settles ∧ (id, call) = x := by
      simpa [settlement?, Event.of] using hx
    subst hx
    exact hallows hsettles
  | .outside (.log _ _) | .under _ | .notify _ _ => cases hx

/-- **What is allowed keeps everything traced.** -/
theorem serve (h : Traced errands tr s gs) (hg : gs[i]? = some g) (hallows : g.Allows r)
    (visit : Visit) :
    Traced errands (tr ++ [.of i visit s r]) (Server.serve (I := interface) visit s r).state
      (gs.set i (g.after r (Server.serve (I := interface) visit s r).answer?)) := by
  have hbrought : ∀ {source d}, Brought errands tr source d →
      Brought errands (tr ++ [.of i visit s r]) source d :=
    fun ⟨b, hb, hsource⟩ => ⟨b, List.mem_append_left _ hb, hsource⟩
  have herrand := h.errand i g hg
  refine ⟨?_, ?_, fun t => ?_, fun id d hd => ?_, h.taken.concat fun d hd => ?_,
    h.settled.concat fun x hx => h.stock i g hg (settledKey_mem hallows hx)⟩
  · intro j g' hj
    rcases cases_of_getElem?_set hg hj with ⟨rfl, rfl⟩ | ⟨-, hj⟩
    · exact herrand
    · exact h.errand j g' hj
  · intro j g' hj
    rcases cases_of_getElem?_set hg hj with ⟨rfl, rfl⟩ | ⟨-, hj⟩
    · refine List.append_subset.mpr ⟨subset_concat (h.stock i g hg) _, ?_⟩
      cases hanswer : (Server.serve (I := interface) visit s r).answer? with
      | none => exact List.nil_subset _
      | some a => exact h.news_subset hg hanswer
    · exact subset_concat (h.stock j g' hj) _
  · refine subset_concat (List.Subset.trans (enlistedKeys_serve hallows visit s t) ?_) _
    exact List.append_subset.mpr ⟨h.enlisted t, h.stock i g hg⟩
  · rcases buffered_or_brought hallows hd with hbefore | ⟨source, hsource, rfl, hd⟩
    · obtain ⟨source, hqueue, hsource⟩ := h.buffered id d hbefore
      exact ⟨source, hqueue, hbrought hsource⟩
    · exact ⟨source, rfl, _, List.mem_append_right _ List.mem_cons_self, hsource ▸ herrand, hd⟩
  · obtain ⟨how, hhow, hmem⟩ := exists_of_taken hallows hd
    obtain ⟨source, hqueue, hsource⟩ := h.buffered _ d hmem
    exact ⟨how, source, hhow ▸ herrand, hqueue, hsource⟩

end Serve

end Traced

/-! ## Every run -/

/-- Surroundings whose participants leave deliveries to others. -/
structure Onlookers extends Surroundings where
  aloof : ∀ turn id notice, Aloof (react turn id notice)

instance : Inhabited Onlookers :=
  ⟨{ (default : Surroundings) with aloof := fun _ _ _ => .done _ }⟩

/-- **The discipline upholds that everything is traced.** -/
theorem stocking_upholds (O : Onlookers) (errands : List Errand) : stocking.Upholds
    (fun (_ : Trace O.toSurroundings) _ => True) (Traced errands) where
  answers := by
    intro tr s s' gs i g visit r signal a h _ hg hallows hserve _
    have hstep := h.serve hg hallows visit
    simp only [Event.of, hserve, Served.state, Served.answer?] at hstep
    exact ⟨g.after r (some a), .refl _, hstep⟩
  sleeps := by
    intro tr s s' gs i g visit r c deadline h _ hg hallows hserve _
    have hstep := h.serve hg hallows visit
    simp only [Event.of, hserve, Served.state, Served.answer?, Stock.after_none] at hstep
    rwa [set_eq_self hg] at hstep
  runs := by
    intro tr s s' gs i g visit r p h _ hg hallows hserve _
    have hstep := h.serve hg hallows visit
    simp only [Event.of, hserve, Served.state, Served.answer?, Stock.after_none] at hstep
    refine ⟨g, hstep, ?_⟩
    -- only a participant runs a program, and it comes back with no less in stock
    obtain ⟨q, notice, rfl⟩ := Request.notify_of_serve_runs hserve
    have hleads : ∀ a g', g.Grows g' → stocking.Leads g (.notify q notice) a g' := by
      intro a g' hg'
      show (g.after (.notify q notice) (some a)).Grows g'
      rwa [Stock.after_notify]
    cases q with
    | delivery e =>
      cases hserve
      exact (e.notify_stocks notice hallows).mono hleads
    | other id =>
      cases hserve
      exact (O.aloof _ _ _).follows.mono hleads

/-- A run of errands in a new client, one thread each. -/
def runErrands (S : Surroundings) (errands : List Errand)
    (schedule : List (Machine.Move interface Unit)) : History interface (Setting S) Unit :=
  (Machine.start ⟨{}, 0⟩ (errands.map Errand.action)).run schedule

/-- The consumers of one queue have one channel. -/
def Agree (errands : List Errand) : Prop :=
  ∀ c ∈ errands.filterMap Errand.consumer?, ∀ c' ∈ errands.filterMap Errand.consumer?,
    c.queue = c'.queue → c.channel = c'.channel

/-- **What it means that deliveries are settled for their takers** in a run
of errands. -/
structure SettlesForTaker (errands : List Errand) (trace : Trace S) : Prop where
  /-- What is taken was brought to a consumer of the same queue. -/
  brought : TakesFromQueue errands trace
  /-- It is settled on the channel of the consumer it is taken through. -/
  atTaker : SettlesAtTaker errands trace
  /-- That is the channel it came from if the consumers of one queue have
  one channel. -/
  atSource : Agree errands → SettlesAtSource errands trace

section Run

variable {errands : List Errand} {trace : Trace S}

/-- What was taken under a key was taken through a consumer of this
channel. -/
theorem exists_taken_of_mem {key : DeliveryKey} (h : key ∈ takenKeys (channelOf errands) trace) :
    ∃ c d, Taken errands trace c d ∧ key = (c.channel, d.tag) := by
  obtain ⟨e, he, hkey⟩ := List.mem_filterMap.mp h
  obtain ⟨d, hd, hmap⟩ := Option.bind_eq_some_iff.mp hkey
  obtain ⟨channel, hof, rfl⟩ := Option.map_eq_some_iff.mp hmap
  obtain ⟨errand, herrand, hchannel⟩ := Option.bind_eq_some_iff.mp hof
  cases errand with
  | take how =>
    cases hchannel
    exact ⟨how.consumer, d, ⟨e, he, hd, how, herrand, rfl⟩, rfl⟩
  | deliver | stand => cases hchannel

theorem mem_consumers {i : Nat} {errand : Errand} {c : Consumer}
    (h : errands[i]? = some errand) (hc : errand.consumer? = some c) :
    c ∈ errands.filterMap Errand.consumer? :=
  List.mem_filterMap.mpr ⟨errand, List.mem_of_getElem? h, hc⟩

/-- **One channel for one queue.** A delivery is taken through a consumer
of the channel that it came from. -/
theorem SettlesAtTaker.atSource (h : SettlesAtTaker errands trace)
    (hbrought : TakesFromQueue errands trace) (hagree : Agree errands) :
    SettlesAtSource errands trace := by
  intro before e later htrace settlement hsettlement
  obtain ⟨c, d, htaken, hkey⟩ := h before e later htrace settlement hsettlement
  obtain ⟨taking, hmem, hd, how, hhow, rfl⟩ := htaken
  obtain ⟨earlier, between, rfl⟩ := List.append_of_mem hmem
  -- the delivery was brought before it was taken
  have hsplit : trace = earlier ++ taking :: (between ++ e :: later) := by simpa using htrace
  obtain ⟨how', source, hhow', hqueue, hsource⟩ := hbrought earlier taking _ hsplit d hd
  rw [hhow, Option.some_inj, Errand.take.injEq] at hhow'
  subst hhow'
  obtain ⟨bringing, hbringing, hdeliver, hbrings⟩ := hsource
  have hchannel : source.channel = how.consumer.channel :=
    hagree source (mem_consumers hdeliver rfl) how.consumer (mem_consumers hhow rfl) hqueue
  refine ⟨how.consumer, d, source, ⟨taking, hmem, hd, how, hhow, rfl⟩,
    ⟨bringing, List.mem_append_left _ hbringing, hdeliver, hbrings⟩, hqueue, ?_⟩
  rw [hkey, hchannel]

/-- Who settles at the source settles on the channel of a consumer that a
delivery was brought to. -/
theorem SettlesAtSource.exists_deliver (h : SettlesAtSource errands trace)
    {settlement : ChannelId × Channel.Call} (hmem : settlement ∈ settlements trace) :
    ∃ source d, .deliver source d ∈ errands ∧ source.channel = settlement.1 := by
  obtain ⟨e, he, hsettlement⟩ := List.mem_filterMap.mp hmem
  obtain ⟨before, later, htrace⟩ := List.append_of_mem he
  obtain ⟨c, d, source, -, ⟨b, -, hdeliver, -⟩, -, hkey⟩ :=
    h before e later htrace settlement hsettlement
  exact ⟨source, d, List.mem_of_getElem? hdeliver, (congrArg Prod.fst hkey).symm⟩

end Run

/-- **A delivery is settled on the channel of the consumer that it is taken
through**, whatever the errands, the channels and the schedule are. -/
theorem settles_for_taker (O : Onlookers) (errands : List Errand)
    (schedule : List (Machine.Move interface Unit)) :
    SettlesForTaker errands (runErrands O.toSurroundings errands schedule).trace := by
  have hfollow : Follow stocking (fun _ _ _ => True) (errands.map Errand.action)
      (errands.map fun errand => (⟨errand, []⟩ : Stock)) := by
    refine ⟨by simp, fun {i p} hp => ?_⟩
    rw [List.getElem?_map, Option.map_eq_some_iff] at hp
    obtain ⟨errand, herrand, rfl⟩ := hp
    exact ⟨⟨errand, []⟩, by simp [herrand], errand.follows⟩
  obtain ⟨gs, htraced, -⟩ := (stocking_upholds O errands).run (.start errands) hfollow
    (fun _ => trivial) schedule
  have hattaker : SettlesAtTaker errands (runErrands O.toSurroundings errands schedule).trace :=
    htraced.settled.mono fun before e hsettled settlement hsettlement =>
      exists_taken_of_mem (hsettled settlement hsettlement)
  exact ⟨htraced.taken, hattaker, hattaker.atSource htraced.taken⟩

/-- Two consumers of one queue, with a channel each: a delivery is brought
to the first and taken through the second. -/
def twoChannels : List Errand :=
  [.deliver ⟨0, 0, 0, .auto⟩ { (default : Delivery) with tag := 7 },
    .take (.plain ⟨1, 1, 0, .auto⟩ .atOnce)]

/-- The first thread runs to its end, then the second. -/
def oneAfterTheOther : List (Machine.Move interface Unit) :=
  List.replicate 2 (.advance .longest 0) ++ List.replicate 3 (.advance .longest 1)

/-- **With two channels on one queue, a delivery may be settled away from
its source**: the second consumer acknowledges on its own channel what
came through the first. -/
theorem not_settlesAtSource :
    ¬ SettlesAtSource twoChannels (runErrands default twoChannels oneAfterTheOther).trace := by
  intro h
  have hsettlements : settlements (runErrands default twoChannels oneAfterTheOther).trace =
      [(1, .acknowledge 7)] := by rfl
  have hmem : (1, .acknowledge 7) ∈
      settlements (runErrands default twoChannels oneAfterTheOther).trace :=
    hsettlements ▸ List.mem_cons_self
  obtain ⟨source, d, hdeliver, hchannel⟩ := h.exists_deliver hmem
  -- the only consumer that anything is brought to has the other channel
  simp only [twoChannels, List.mem_cons, Errand.deliver.injEq, reduceCtorEq, List.not_mem_nil,
    or_false] at hdeliver
  rw [hdeliver.1] at hchannel
  cases hchannel

end Source

end MessageIntake
