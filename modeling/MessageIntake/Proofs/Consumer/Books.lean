import MessageIntake.Proofs.Consumer.Hand
import MessageIntake.Proofs.Machine.Balance
import MessageIntake.Proofs.Queue.Conservation
import MessageIntake.Proofs.Transaction.Standing

/-!
# The books of transactional deliveries

Three things balance in every run of the threads that follow `handling`:
deliveries, from the queue to an attempt to enlist them; flags, from
their making to the same attempt; and calls that settle, from what asks
for them to the channel. What asks for a call is an attempt to enlist
that is refused, or a notice to an enlistment.

`Hand.Enters` says what one event does to all of them at once, and
`Books.step` that the books are kept by such events.
-/

namespace MessageIntake

open Client Transaction

variable {S : Surroundings} {t : TransactionId}

/-- What a delivery is settled under. -/
abbrev DeliveryKey := ChannelId × UInt64

def Enlistment.key (e : Enlistment) : DeliveryKey := (e.channel, e.tag)

/-- The enlistment of a participant that is one. -/
def Participant.enlistment? : Participant → Option Enlistment
  | .delivery e => some e
  | .other _ => none

namespace Settlement

/-! ## What is read off a run -/

/-- The delivery that an event takes off a queue. -/
def taken? : Event interface (Setting S) → Option Delivery
  | ⟨i, before, Request.under (.queue id call), answer, after⟩ =>
    Queue.handedOut?
      ⟨i, before.world.queues.get id, call, answer, after.world.queues.get id⟩
  | _ => none

/-- The enlistment that an event attempts, and whether it is accepted. -/
def attempt? (t : TransactionId) : Event interface (Setting S) → Option (Enlistment × Bool)
  | ⟨_, _, Request.under (.transaction id (.enlist (.delivery e))), some (.ok _), _⟩ =>
    if id = t then some (e, true) else none
  | ⟨_, _, Request.under (.transaction id (.enlist (.delivery e))), some (.error _), _⟩ =>
    if id = t then some (e, false) else none
  | _ => none

/-- The call to settle a delivery that an event makes. -/
def settlement? : Event interface (Setting S) → Option (ChannelId × Channel.Call)
  | ⟨_, _, Request.outside (.channel id call), _, _⟩ =>
    if call.settles then some (id, call) else none
  | _ => none

/-- The flag that an event makes. -/
def made? : Event interface (Setting S) → Option EnlistmentId
  | ⟨_, _, Request.under .newFlag, answer, _⟩ => answer
  | _ => none

/-- The enlistment that an event enlists. -/
def accepted? (t : TransactionId) (e : Event interface (Setting S)) : Option Enlistment :=
  (attempt? t e).bind fun (enlistment, accepted) => if accepted then some enlistment else none

/-- The enlistment that an event refuses. -/
def refused? (t : TransactionId) (e : Event interface (Setting S)) : Option Enlistment :=
  (attempt? t e).bind fun (enlistment, accepted) => if accepted then none else some enlistment

/-- The call that hands a refused delivery back. -/
def handBack (e : Enlistment) : ChannelId × Channel.Call := (e.channel, .reject e.tag true)

/-- The call that a notice asks for. -/
def ordered? (message : Participant × Notice) : Option (Enlistment × Channel.Call) :=
  message.1.enlistment?.bind fun e => (e.call? message.2).map fun call => (e, call)

/-- The call that an event asks for: to hand a refused delivery back, or
to settle one by a notice. -/
def due? (t : TransactionId) (e : Event interface (Setting S)) :
    Option (ChannelId × Channel.Call) :=
  ((refused? t e).map handBack).or
    (((notice? e).bind ordered?).map fun (enlistment, call) => (enlistment.channel, call))

end Settlement

namespace Hand

/-- The delivery in hand that is not passed on yet. -/
def key? : Hand → Option DeliveryKey
  | .taken channel d | .flagged channel d _ => some (channel, d.tag)
  | _ => none

/-- The flag in hand. -/
def flag? : Hand → Option EnlistmentId
  | .flagged _ _ flag => some flag
  | _ => none

/-- The call that is still to be made. -/
def call? : Hand → Option (ChannelId × Channel.Call)
  | .refused channel d => some (channel, .reject d.tag true)
  | .told e call => some (e.channel, call)
  | .settling channel call => some (channel, call)
  | _ => none

/-- The delivery that the thread has taken. -/
def delivery? : Hand → Option Delivery
  | .taken _ d | .flagged _ d _ | .kept _ d _ | .refused _ d | .returned _ d => some d
  | _ => none

/-- The enlistment that the thread has made. -/
def enlistment? : Hand → Option Enlistment
  | .kept channel d flag => some ⟨flag, d.tag, channel⟩
  | _ => none

end Hand

/-! ## What an event enters -/

namespace Settlement

/-- What the delivery that an event takes is settled under, if the
dequeues of a thread settle on its channel in `channels`. -/
def takenKey? (channels : Nat → Option ChannelId) (e : Event interface (Setting S)) :
    Option DeliveryKey :=
  (taken? e).bind fun d => (channels e.thread).map fun channel => (channel, d.tag)

/-- What the delivery of an attempt is settled under. -/
def passedKey? (t : TransactionId) (e : Event interface (Setting S)) : Option DeliveryKey :=
  (attempt? t e).map fun (enlistment, _) => enlistment.key

/-- The flag of an attempt. -/
def passedFlag? (t : TransactionId) (e : Event interface (Setting S)) : Option EnlistmentId :=
  (attempt? t e).map fun (enlistment, _) => enlistment.flag

/-- Whether nothing is read off an event. -/
structure Silent (t : TransactionId) (e : Event interface (Setting S)) : Prop where
  taken : taken? e = none
  attempt : attempt? t e = none
  settlement : settlement? e = none
  made : made? e = none
  notice : notice? e = none

/-- **What one event of thread `i` enters into the books**, with `g` in
hand before and `g'` after. -/
structure Enters (t : TransactionId) (channels : Nat → Option ChannelId) (i : Nat) (g : Hand)
    (e : Event interface (Setting S)) (g' : Hand) : Prop where
  thread : e.thread = i
  post : ∀ channel, g' = .ready channel → g = .ready channel
  delivery : (takenKey? channels e).toList ++ g.key?.toList =
    g'.key?.toList ++ (passedKey? t e).toList
  call : (due? t e).toList ++ g.call?.toList = g'.call?.toList ++ (settlement? e).toList
  flag : (made? e).toList ++ g.flag?.toList = g'.flag?.toList ++ (passedFlag? t e).toList
  ownDelivery : g'.delivery?.toList = g.delivery?.toList ++ (taken? e).toList
  ownEnlistment : g'.enlistment?.toList = g.enlistment?.toList ++ (accepted? t e).toList

variable {channels : Nat → Option ChannelId} {i : Nat} {g g' : Hand}

/-- A silent event changes nothing in hand. -/
theorem Silent.enters {e : Event interface (Setting S)} (h : Silent t e) (hthread : e.thread = i)
    (g : Hand) : Enters t channels i g e g where
  thread := hthread
  post := fun _ hg => hg
  delivery := by simp [takenKey?, passedKey?, h.taken, h.attempt]
  call := by simp [due?, refused?, h.attempt, h.notice, h.settlement]
  flag := by simp [passedFlag?, h.made, h.attempt]
  ownDelivery := by simp [h.taken]
  ownEnlistment := by simp [accepted?, h.attempt]

/-- A plain request is silent, whatever the answer is. -/
theorem silent_of_plain {r : Request} (h : r.Plain) (s s' : Setting S)
    (answer : Option r.Answer) :
    Silent t (⟨i, s, r, answer, s'⟩ : Event interface (Setting S)) := by
  match r with
  | .under (.queue id call) =>
    refine ⟨?_, rfl, rfl, rfl, rfl⟩
    cases call <;> simp_all [Request.Plain, Queue.Call.takes, taken?, Queue.handedOut?]
  | .under (.lifecycle _ _) | .outside (.log _ _) => exact ⟨rfl, rfl, rfl, rfl, rfl⟩
  | .under (.transaction id part) =>
    have hne : ∀ e, part ≠ .enlist (.delivery e) := h
    refine ⟨rfl, ?_, rfl, rfl, rfl⟩
    cases part with
    | enlist p => cases p <;> simp_all [attempt?]
    | _ => rfl
  | .outside (.channel id call) =>
    have hcall : call.settles = false := h
    exact ⟨rfl, rfl, by simp [settlement?, hcall], rfl, rfl⟩

/-- A dequeue that is answered holds what it was given. -/
theorem enters_take {channel : ChannelId} (hchannel : channels i = some channel) {id : QueueId}
    {call : Queue.Call Delivery} (hwait : ∀ d, call ≠ .dequeueNoWait d) (s s' : Setting S)
    (a : call.Answer) :
    Enters t channels i (.ready channel)
      (⟨i, s, Request.under (.queue id call), some a, s'⟩ : Event interface (Setting S))
      (((Hand.given call a).map (.taken channel)).getD (.ready channel)) := by
  have htaken : taken? (⟨i, s, Request.under (.queue id call), some a, s'⟩ :
      Event interface (Setting S)) = Hand.given call a := by
    cases call with
    | dequeue | tryDequeue | dequeueTimeout => cases a <;> rfl
    | enqueue | waitForMessage | close | look => rfl
    | dequeueNoWait d => exact absurd rfl (hwait d)
  cases hgiven : Hand.given call a with
  | none =>
    rw [hgiven] at htaken
    exact Silent.enters ⟨htaken, rfl, rfl, rfl, rfl⟩ rfl _
  | some d =>
    rw [hgiven] at htaken
    refine ⟨rfl, by simp, ?_, rfl, rfl, ?_, rfl⟩
    · simp [takenKey?, htaken, hchannel]
      rfl
    · simp [htaken]
      rfl

/-- **What follows from what is in hand.** -/
theorem enters_of_acts {r : Request} (hacts : g.Acts t r) (hnotice : ∀ p n, r ≠ .notify p n)
    (hpost : ∀ channel, g = .ready channel → channels i = some channel) {a : r.Answer}
    (hafter : g.After r a g') (s s' : Setting S) :
    Enters t channels i g (⟨i, s, r, some a, s'⟩ : Event interface (Setting S)) g' := by
  cases hacts with
  | tell p n => exact absurd rfl (hnotice p n)
  | take htakes hwait =>
    obtain rfl : g' = _ := hafter
    exact enters_take (hpost _ rfl) hwait s s' a
  | flag =>
    obtain rfl : g' = _ := hafter
    exact ⟨rfl, by simp, rfl, rfl, rfl, rfl, rfl⟩
  | enlist =>
    cases a with
    | ok =>
      obtain rfl : g' = _ := hafter
      refine ⟨rfl, by simp, ?_, ?_, ?_, rfl, ?_⟩
      · simp [takenKey?, taken?, passedKey?, attempt?, Hand.key?, Enlistment.key]
      · simp [due?, refused?, attempt?, notice?, settlement?, Hand.call?]
      · simp [made?, passedFlag?, attempt?, Hand.flag?]
      · simp [accepted?, attempt?, Hand.enlistment?]
    | error =>
      obtain rfl : g' = _ := hafter
      refine ⟨rfl, by simp, ?_, ?_, ?_, rfl, ?_⟩
      · simp [takenKey?, taken?, passedKey?, attempt?, Hand.key?, Enlistment.key]
      · simp [due?, refused?, attempt?, notice?, settlement?, Hand.call?, handBack]
      · simp [made?, passedFlag?, attempt?, Hand.flag?]
      · simp [accepted?, attempt?, Hand.enlistment?]
  | handBack =>
    obtain rfl : g' = _ := hafter
    exact ⟨rfl, by simp, rfl, rfl, rfl, rfl, rfl⟩
  | settle =>
    obtain ⟨-, rfl⟩ := hafter
    exact ⟨rfl, by simp, rfl, rfl, rfl, rfl, rfl⟩
  | @call channel call hsettles =>
    cases call with
    | acknowledge | reject =>
      obtain rfl : g' = _ := hafter
      exact ⟨rfl, by simp, rfl, rfl, rfl, rfl, rfl⟩
    | cancel => simp [Channel.Call.settles] at hsettles

/-- A notice to an enlistment is told to it. -/
theorem enters_notice (e : Enlistment) (notice : Notice) (s s' : Setting S) :
    Enters t channels i .empty
      (⟨i, s, Request.notify (.delivery e) notice, none, s'⟩ : Event interface (Setting S))
      (.ofNotice e notice) := by
  cases notice <;> exact ⟨rfl, by simp [Hand.ofNotice, Enlistment.call?], rfl, rfl, rfl, rfl, rfl⟩

/-- Any other participant does not settle anything. -/
theorem enters_other (id : ParticipantId) (notice : Notice) (s s' : Setting S) :
    Enters t channels i .empty
      (⟨i, s, Request.notify (.other id) notice, none, s'⟩ : Event interface (Setting S)) .empty :=
  ⟨rfl, by simp, rfl, rfl, rfl, rfl, rfl⟩

/-! ## The books -/

/-- **The books**, by the events so far and what the threads have in
hand. -/
structure Books (t : TransactionId) (channels : Nat → Option ChannelId) (tr : Trace S)
    (gs : List Hand) : Prop where
  /-- Who is about to take a delivery settles on its own channel. -/
  post : ∀ i channel, gs[i]? = some (.ready channel) → channels i = some channel
  deliveries : Balanced (takenKey? channels) (passedKey? t) Hand.key? tr gs
  calls : Balanced (due? t) settlement? Hand.call? tr gs
  flags : Balanced made? (passedFlag? t) Hand.flag? tr gs
  /-- What a thread has done itself is what it has in hand. -/
  own : ∀ i g, gs[i]? = some g → (eventsOf i tr).filterMap taken? = g.delivery?.toList ∧
    (eventsOf i tr).filterMap (accepted? t) = g.enlistment?.toList

/-- Before anything has happened, nobody has a delivery in hand. -/
theorem Books.start {gs : List Hand} (hgs : ∀ g ∈ gs, g = .empty ∨ ∃ channel, g = .ready channel)
    (hpost : ∀ i channel, gs[i]? = some (.ready channel) → channels i = some channel) :
    Books t channels ([] : Trace S) gs := by
  have hnone : ∀ g ∈ gs, g.key? = none ∧ g.call? = none ∧ g.flag? = none ∧
      g.delivery? = none ∧ g.enlistment? = none := by
    intro g hg
    rcases hgs g hg with rfl | ⟨channel, rfl⟩ <;> exact ⟨rfl, rfl, rfl, rfl, rfl⟩
  refine ⟨hpost, ?_, ?_, ?_, fun i g hg => ?_⟩
  · rw [Balanced, List.filterMap_eq_nil_iff.mpr fun g hg => (hnone g hg).1]
    rfl
  · rw [Balanced, List.filterMap_eq_nil_iff.mpr fun g hg => (hnone g hg).2.1]
    rfl
  · rw [Balanced, List.filterMap_eq_nil_iff.mpr fun g hg => (hnone g hg).2.2.1]
    rfl
  · obtain ⟨-, -, -, hdelivery, henlistment⟩ := hnone g (List.mem_of_getElem? hg)
    rw [hdelivery, henlistment]
    exact ⟨rfl, rfl⟩

/-- **Every event is entered.** -/
theorem Books.step {tr : Trace S} {gs : List Hand} (h : Books t channels tr gs)
    (hg : gs[i]? = some g) {e : Event interface (Setting S)} (he : Enters t channels i g e g') :
    Books t channels (tr ++ [e]) (gs.set i g') where
  post := by
    intro j channel hj
    rcases cases_of_getElem?_set hg hj with ⟨rfl, hput⟩ | ⟨-, hj⟩
    · exact h.post i channel (hg.trans (congrArg some (he.post channel hput.symm)))
    · exact h.post j channel hj
  deliveries := h.deliveries.step hg he.delivery
  calls := h.calls.step hg he.call
  flags := h.flags.step hg he.flag
  own := by
    intro j g'' hj
    rcases cases_of_getElem?_set hg hj with ⟨rfl, rfl⟩ | ⟨hij, hj⟩
    · have hown : eventsOf i (tr ++ [e]) = eventsOf i tr ++ [e] := by
        simp [eventsOf, he.thread]
      obtain ⟨htaken, haccepted⟩ := h.own i g hg
      rw [hown, filterMap_concat, filterMap_concat, htaken, haccepted]
      exact ⟨he.ownDelivery.symm, he.ownEnlistment.symm⟩
    · have hown : eventsOf j (tr ++ [e]) = eventsOf j tr := by
        simp [eventsOf, he.thread, hij]
      rw [hown]
      exact h.own j g'' hj

end Settlement

end MessageIntake
