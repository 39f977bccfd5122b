import MessageIntake.Consumer.Basic
import MessageIntake.Proofs.Client.Scene

/-!
# The conduct of whoever uses a consumer

One thread reports to a consumer what the broker says, one callback after
another; any number of others cancel it, and channels and participants
may do so while they are called. `conduct` is the discipline of them all:
only the first thread starts the consumer and loses its transport, only
who was given the tag asks the broker to cancel, and only who has ended
the consumer closes its queue. A `Role` is the note of a thread, which
says what it owes.

`dispatch` and `Minds` are the programs in question, and `Minds.follows`
and `dispatch_follows` say that they follow it.
-/

namespace MessageIntake

open Client

/-- What a thread still has to do about a consumer. -/
inductive Owes where
  | nothing
  /-- It was given the tag to cancel with. -/
  | request (tag : String)
  /-- It has lost the transport and is about to end the consumer. -/
  | ending
  /-- It has ended the consumer and is about to close its queue. -/
  | closing
  deriving DecidableEq, Repr

/-- A thread, and what it owes. -/
structure Role where
  thread : Nat
  owes : Owes
  deriving DecidableEq, Repr

namespace Role

/-- The thread that owes nothing. -/
def rests (g : Role) : Role := { g with owes := .nothing }

@[simp] theorem thread_rests (g : Role) : g.rests.thread = g.thread := rfl

theorem rests_eq {g : Role} (h : g.owes = .nothing) : g.rests = g := by
  obtain ⟨thread, owes⟩ := g
  obtain rfl : owes = .nothing := h
  rfl

/-- Who may do a section. Callbacks are the business of the first
thread. -/
def Begins (g : Role) : Lifecycle.Section → Prop
  | .start _ | .loseTransport _ => g.thread = 0 ∧ g.owes = .nothing
  | .requestCancel => g.owes = .nothing
  | .cancel => g.owes = .nothing ∨ g.owes = .ending
  | .look => True

/-- What a section leaves its thread with. -/
def after (g : Role) : (part : Lifecycle.Section) → part.Answer → Role
  | .requestCancel, some tag => { g with owes := .request tag }
  | .loseTransport _, true => { g with owes := .ending }
  | .cancel, (state, _) => { g with owes := if state = .canceled then .nothing else .closing }
  | .requestCancel, none | .loseTransport _, false | .start _, _ | .look, _ => g

@[simp] theorem thread_after (g : Role) (part : Lifecycle.Section) (a : part.Answer) :
    (g.after part a).thread = g.thread := by
  cases part with
  | start | look => rfl
  | requestCancel | loseTransport => cases a <;> rfl
  | cancel => rfl

end Role

/-- **The discipline of a consumer.** -/
def conduct (c : Consumer) : Discipline Client.interface Role where
  Permits
    | g, .under (.lifecycle id part) => id = c.lifecycle → g.Begins part
    | g, .under (.queue id .close) => id = c.queue → g.owes = .closing
    | g, .outside (.channel id (.cancel tag)) =>
      if id = c.channel then g.owes = .request tag else g.owes = .nothing
    | g, .outside (.channel _ _) | g, .notify _ _ => g.owes = .nothing
    | _, _ => True
  Leads
    | g, .under (.lifecycle id part), a, g' =>
      g' = if id = c.lifecycle then g.after part a else g
    | g, .under (.queue id .close), _, g' => g' = if id = c.queue then g.rests else g
    | g, .outside (.channel _ _), _, g' => g' = g.rests
    | g, _, _, g' => g' = g

/-- Requests that neither change the lifecycle of a consumer, nor close
its queue, nor ask the broker to cancel on its channel. -/
def Client.Request.Leaves (c : Consumer) : Request → Prop
  | .under (.lifecycle id part) => id = c.lifecycle → part = .look
  | .under (.queue id call) => id = c.queue → call ≠ .close
  | .outside (.channel id call) => id = c.channel → ∀ tag, call ≠ .cancel tag
  | .under _ | .outside _ | .notify _ _ => True

/-- **A program on the application's side of a consumer**: it cancels the
consumer, any number of times, and leaves it alone apart from that. -/
inductive Minds (c : Consumer) {α : Type} : Action α → Prop
  | done (a : α) : Minds c (.done a)
  | ask {r : Request} {next : r.Answer → Action α} :
    r.Leaves c → (∀ a, Minds c (next a)) → Minds c (.ask r next)
  | cancel {next : Result Unit → Action α} :
    (∀ a, Minds c (next a)) → Minds c (c.cancel.bind next)

/-- An enlistment leaves consumers alone. -/
theorem Enlistment.minds {c : Consumer} (e : Enlistment) (notice : Notice) :
    Minds c (e.notify notice) := by
  have hsettle : ∀ call, (∀ tag, call ≠ .cancel tag) → Minds c (e.settle call) := by
    refine fun call hcall => .ask trivial fun fresh => ?_
    cases fresh with
    | true => exact .ask (fun _ => hcall) .done
    | false => exact .done _
  cases notice with
  | prepare => exact .done _
  | commit | rollback => exact hsettle _ nofun
  | inDoubt => exact .ask trivial fun _ => .done _

/-- What the broker reports to a consumer. -/
inductive Callback where
  | consumeOk (tag : String)
  | deliver (d : Delivery)
  | cancelByBroker (tag : String)
  | cancelConfirmed (tag : String)
  | shutdown (reason : ShutdownReason)

/-- The program of a callback. -/
def Callback.on (b : BasicConsumer) : Callback → Action (Result Unit)
  | .consumeOk tag => b.consumeOk tag
  | .deliver d => b.deliver d
  | .cancelByBroker tag => do
    b.cancelByBroker tag
    return .ok ()
  | .cancelConfirmed tag => do
    b.cancelConfirmed tag
    return .ok ()
  | .shutdown reason => do
    b.shutdown reason
    return .ok ()

/-- The program of a callback of the consumer `c`. -/
def Callback.action (c : Consumer) (callback : Callback) : Action (Result Unit) :=
  callback.on c.basicConsumer

/-- The callbacks of a consumer, one after another, with their results. -/
def dispatch (c : Consumer) : List Callback → Action (List (Result Unit))
  | [] => return []
  | callback :: rest => do
    let result ← callback.action c
    let results ← dispatch c rest
    return result :: results

/-! ## Following the discipline -/

section Follows

variable {c : Consumer} {g : Role} {α : Type} {Post : α → Role → Prop}

/-- A request that leaves the consumer alone, by a thread that owes
nothing. -/
theorem ask_follows_of_leaves {r : Request} {next : r.Answer → Action α} (h : r.Leaves c)
    (hg : g.owes = .nothing) (hnext : ∀ a, (next a).Follows (conduct c) Post g) :
    (Program.ask (I := interface) r next).Follows (conduct c) Post g := by
  have hrests : g.rests = g := g.rests_eq hg
  have hpermit : (conduct c).Permits g r ∧ ∀ (a : r.Answer) g', (conduct c).Leads g r a g' →
      g' = g := by
    match r with
    | .under (.lifecycle id part) =>
      by_cases hid : id = c.lifecycle
      · obtain rfl : part = .look := h hid
        exact ⟨fun _ => trivial, fun a g' hlead => by simpa [conduct, hid, Role.after] using hlead⟩
      · exact ⟨fun h => absurd h hid, fun a g' hlead => by simpa [conduct, hid] using hlead⟩
    | .under (.queue id call) =>
      cases call with
      | close =>
        have hid : id ≠ c.queue := fun hid => h hid rfl
        exact ⟨fun h => absurd h hid, fun a g' hlead => by simpa [conduct, hid] using hlead⟩
      | enqueue | dequeue | tryDequeue | dequeueNoWait | dequeueTimeout | waitForMessage | look =>
        exact ⟨trivial, fun _ _ hlead => hlead⟩
    | .outside (.channel id call) =>
      cases call with
      | cancel tag =>
        have hid : id ≠ c.channel := fun hid => h hid tag rfl
        refine ⟨?_, fun _ g' hlead => Eq.trans hlead hrests⟩
        show if id = c.channel then _ else _
        rw [if_neg hid]
        exact hg
      | acknowledge | reject => exact ⟨hg, fun _ _ hlead => Eq.trans hlead hrests⟩
    | .under (.transaction _ _) | .under .newFlag | .under (.settle _) | .outside (.log _ _) =>
      exact ⟨trivial, fun _ _ hlead => hlead⟩
    | .notify _ _ => exact ⟨hg, fun _ _ hlead => hlead⟩
  refine ⟨hpermit.1, fun a g' hlead => ?_⟩
  rw [hpermit.2 a g' hlead]
  exact hnext a

theorem log_follows {level : Level} {text : String} {next : Unit → Action α}
    (h : (next ()).Follows (conduct c) Post g) :
    ((log level text).bind next).Follows (conduct c) Post g :=
  ⟨trivial, fun _ _ hlead => hlead ▸ h⟩

/-- **Ending the consumer.** Whoever finds it not ended yet closes its
queue. -/
theorem Consumer.onCancel_follows (h : g.owes = .nothing ∨ g.owes = .ending) :
    c.onCancel.Follows (conduct c) (fun _ g' => g' = g.rests) g := by
  refine ⟨fun _ => h, fun a g' hlead => ?_⟩
  obtain ⟨state, tag⟩ := a
  simp only [conduct, if_true, Role.after] at hlead
  subst hlead
  dsimp only [Program.done_bind]
  by_cases hstate : state = .canceled
  · simp only [hstate, if_true]
    rfl
  · simp only [hstate, if_false]
    refine ⟨fun _ => rfl, fun _ g' hlead => ?_⟩
    simp only [conduct, if_true] at hlead
    subst hlead
    exact ⟨trivial, fun _ _ hlead => hlead ▸ ⟨trivial, fun _ _ hlead => hlead⟩⟩

/-- **Canceling it.** The broker is asked if the tag was given. -/
theorem Consumer.cancel_follows (h : g.owes = .nothing) :
    c.cancel.Follows (conduct c) (fun _ g' => g' = g) g := by
  refine ⟨fun _ => h, fun tag? g' hlead => ?_⟩
  simp only [conduct, if_true] at hlead
  subst hlead
  cases tag? with
  | none =>
    refine (Consumer.onCancel_follows (.inl h)).bind fun _ g' hg' => ?_
    exact hg'.trans (g.rests_eq h)
  | some tag =>
    refine ⟨by simp [conduct, Role.after], fun _ g' hlead => ?_⟩
    have hg' : g' = g.rests := hlead
    rw [g.rests_eq h] at hg'
    subst hg'
    exact (Consumer.onCancel_follows (.inl h)).bind fun _ g'' hg'' => hg''.trans (g'.rests_eq h)

/-- **The application's side follows the discipline.** -/
theorem Minds.follows {p : Action α} (hp : Minds c p) (hg : g.owes = .nothing) :
    p.Follows (conduct c) (fun _ g' => g' = g) g := by
  induction hp with
  | done a => rfl
  | ask hr _ ih => exact ask_follows_of_leaves hr hg ih
  | cancel _ ih => exact (Consumer.cancel_follows hg).bind fun a g' hg' => hg' ▸ ih a

/-- Losing the transport. -/
theorem Consumer.shutdown_follows (reason : ShutdownReason) (hthread : g.thread = 0)
    (hg : g.owes = .nothing) :
    (c.shutdown reason).Follows (conduct c) (fun _ g' => g' = g) g := by
  refine ⟨fun _ => ⟨hthread, hg⟩, fun counts g' hlead => ?_⟩
  simp only [conduct, if_true] at hlead
  subst hlead
  cases counts with
  | false => rfl
  | true =>
    have hend : c.onCancel.Follows (conduct c) (fun _ g' => g' = g)
        { g with owes := .ending } :=
      (Consumer.onCancel_follows (.inr rfl)).mono fun _ g' hg' => hg'.trans (g.rests_eq hg)
    dsimp only [Program.done_bind]
    by_cases hclean : reason.isClean <;> simp only [hclean] <;> exact log_follows hend

/-- **Every callback follows it**, in the first thread. -/
theorem Callback.follows (callback : Callback) (hthread : g.thread = 0) (hg : g.owes = .nothing) :
    (callback.action c).Follows (conduct c) (fun _ g' => g' = g) g := by
  have hend : c.onCancel.Follows (conduct c) (fun _ g' => g' = g) g :=
    (Consumer.onCancel_follows (.inl hg)).mono fun _ g' hg' => hg'.trans (g.rests_eq hg)
  cases callback with
  | consumeOk tag =>
    refine ⟨fun _ => ⟨hthread, hg⟩, fun r g' hlead => ?_⟩
    simp only [conduct, if_true, Role.after] at hlead
    subst hlead
    cases r with
    | ok => exact log_follows rfl
    | error e => rfl
  | deliver d =>
    refine log_follows (ask_follows_of_leaves (fun _ => nofun) hg fun r => ?_)
    cases r with
    | ok => rfl
    | error e => exact log_follows rfl
  | cancelByBroker tag | cancelConfirmed tag =>
    exact (log_follows hend).bind fun _ g' hg' => hg'
  | shutdown reason => exact (Consumer.shutdown_follows reason hthread hg).bind fun _ g' hg' => hg'

/-- **The broker's side follows the discipline.** -/
theorem dispatch_follows (hthread : g.thread = 0) (hg : g.owes = .nothing) :
    ∀ callbacks, (dispatch c callbacks).Follows (conduct c) (fun _ g' => g' = g) g := by
  intro callbacks
  induction callbacks with
  | nil => rfl
  | cons callback rest ih =>
    refine (callback.follows hthread hg).bind fun result g' hg' => ?_
    subst hg'
    exact ih.bind fun results g' hg' => hg'

end Follows

end MessageIntake
