import MessageIntake.Script
import MessageIntake.Session.State
import MessageIntake.Text.Utf8

/-!
# How a session runs

Each command finds its objects by name when it starts and then runs the
library's program on them. Calls to the outside are answered by the
session: a channel by its rules, a participant by its script, the log by
an event. The steps that a rule hooks into a call run inside that call,
on the same thread. Any step may start a thread on the side or wait for
one.
-/

namespace MessageIntake.Session

open Client

/-- What the programs of a session ask. -/
inductive Request where
  | client (r : Client.Request)
  /-- Runs a command; on a thread of its own it may wait for as long as it
  takes. -/
  | perform (spawned : Bool) (c : Command)
  /-- Takes a further delivery of an iteration; those taken are in `got`,
  the last first. -/
  | iterate (spawned : Bool) (c : Consumer) (left : Option Nat) (it : Queue.Iterator)
      (got : List (Result UInt64))
  | save (name : String) (d : Delivery)
  /-- Lets a transaction go, and discards it if nobody else holds it. -/
  | release (t : TransactionId)
  /-- Whether a transaction is being discarded. -/
  | isGone (t : TransactionId)
  /-- Whether the enlistment of a flag has settled its delivery. -/
  | isSettled (flag : EnlistmentId)
  | report (e : Event)
  /-- The hooks of a channel have run. -/
  | rest (channel : ChannelId)
  /-- A thread on the side has ended. -/
  | ended (thread : Nat) (reply : Reply)
  /-- Waits for threads on the side. -/
  | await (threads : List Nat)

@[reducible] def Request.Answer : Request → Type
  | .client r => r.Answer
  | .perform _ _ => Reply
  | .iterate _ _ _ _ _ => Reply
  | .save _ _ => Unit
  | .release _ => Unit
  | .isGone _ => Bool
  | .isSettled _ => Bool
  | .report _ => Unit
  | .rest _ => Unit
  | .ended _ _ => Unit
  | .await _ => List Reply

def interface : Interface := ⟨Request, Request.Answer⟩

abbrev Act (α : Type) := Program interface α

def ask (r : Request) : Act r.Answer := Program.request (I := interface) r

/-- A program of the library as a program of the session. -/
def lift {α : Type} (action : Action α) : Act α :=
  action.substitute fun (r : Client.Request) => ask (.client r)

/-! ## Commands -/

/-- Whether a call on `q` that may wait for `timeout` would wait too
long. -/
def wouldBlock (spawned : Bool) (q : Queue Delivery) (timeout : Timeout) : Bool :=
  !spawned && q.isOpen && q.items.isEmpty && timeout.exceeds patience

/-- `act`, unless it would wait too long on `q`. -/
def guarded (spawned : Bool) (q : Queue Delivery) (timeout : Timeout) (act : Act Reply) :
    Act Reply :=
  if wouldBlock spawned q timeout then .done .wouldBlock else act

/-- Keeps the delivery of a reply under a name, if one is given. -/
def saving (save : Option String) (act : Act Reply) : Act Reply := do
  let reply ← act
  match save, reply with
  | some name, .delivery d => ask (.save name d)
  | _, _ => pure ()
  return reply

/-- `act`, with `t` held meanwhile. -/
def holding (s : State) (t : TransactionId) (act : Act Reply) : State × Act Reply :=
  (s.hold t, do
    let reply ← act
    ask (.release t)
    return reply)

/-- A command that leaves the state as it is until its program runs. -/
def running (s : State) (act : Act Reply) : State × Act Reply := (s, act)

/-- A command with an immediate reply. -/
def replying (s : State) (reply : Reply) : State × Act Reply := (s, .done reply)

/-- Goes on with an object, if there is one. -/
def withObject {α : Type} (s : State) (found : Option α) (go : α → State × Act Reply) :
    State × Act Reply :=
  match found with
  | some a => go a
  | none => replying s .badRequest

/-- The operation that a dequeue of a plain consumer is. -/
def plainDequeue (c : Consumer) : Take → Act Reply
  | .wait => do return .ofDelivery (← lift c.dequeue)
  | .within timeout => do return .ofDelivery? (← lift (c.dequeueTimeout timeout))
  | .noWait => do return .ofDelivery? (← lift c.dequeueNoWait)

/-- The operation that a dequeue under a transaction is. -/
def transactionalDequeue (c : TransactionalConsumer) (t : TransactionId) : Take → Act Reply
  | .wait => do return .ofDelivery (← lift (c.dequeue t))
  | .within timeout => do return .ofDelivery? (← lift (c.dequeueTimeout timeout t))
  | .noWait => do return .ofDelivery? (← lift (c.dequeueNoWait t))

/-- How long a dequeue may wait. -/
def Take.timeout : Take → Timeout
  | .wait => .infinite
  | .within timeout => timeout
  | .noWait => .zero

/-- Whether `t` lets a dequeue go as far as its queue. -/
def isActive (s : State) (t : TransactionId) : Bool := (s.transactionOf t).status = .active

def dequeue (s : State) (spawned : Bool) (how : Take) (transaction save : Option String) :
    Holder → State × Act Reply
  | .plain c =>
    running s <| saving save <|
      guarded spawned (s.queueOf c.queue) how.timeout (plainDequeue c how)
  | .transactional c =>
    withObject s (transaction.bind s.transactions.get?) fun t =>
      let act := transactionalDequeue c t how
      holding s t <| saving save <|
        if isActive s t then guarded spawned (s.queueOf c.inner.queue) how.timeout act else act
  | .subscriber _ => replying s .badRequest

def receive (s : State) (spawned : Bool) (transaction save : Option String) :
    Holder → State × Act Reply
  | .subscriber u =>
    let t := transaction.bind s.transactions.get?
    let act : Act Reply := do return .ofReceived (← lift (u.receive t))
    let reachesQueue := u.ackMode != .transactional || t.any (isActive s)
    let act := saving save <|
      if reachesQueue then guarded spawned (s.queueOf u.queue) u.receiveTimeout act
      else act
    match t with
    | some t => holding s t act
    | none => running s act
  | _ => replying s .badRequest

/-- The verdict of a handler on a delivery. -/
def Verdict.on (d : Delivery) : Verdict → Except Json Json
  | .ok value => .ok value
  | .err value => .error value
  | .utf8 =>
    match Text.Utf8.decode d.body with
    | .ok text => .ok (.str text)
    | .error valid => .error (.int valid)

/-- Runs a handler whose function reports its call. -/
def invoke (h : AcknowledgeHandler) (d : Delivery) (verdict : Verdict) : Act Reply := do
  ask (.report (.handler d.tag))
  match ← lift (h.invoke d fun d => pure (verdict.on d)) with
  | .ok verdict => return .handled verdict
  | .error e => return .failed e

/-- Tells an enlistment, and says whether it has settled its delivery
before and after. -/
def tell (s : State) (e : Enlistment) (notice : Notice) : State × Act Reply :=
  running s do
    let before ← ask (.isSettled e.flag)
    let answer ← lift (e.notify notice)
    let after ← ask (.isSettled e.flag)
    return .told answer e.tag before after

/-- Adds a rule to a channel. -/
def addRule (s : State) (channel : String) (r : Rule) : State × Act Reply :=
  withObject s (s.channels.get? channel) fun id =>
    replying
      { s with booths := s.booths.modify id fun b => { b with rules := b.rules ++ [r] } } .ok

/-- A step with a transaction that has a result without a value. -/
def completing (s : State) (transaction : String) (action : TransactionId → Action (Result Unit)) :
    State × Act Reply :=
  withObject s (s.transactions.get? transaction) fun t =>
    holding s t do return .ofUnit (← lift (action t))

/-- A step with a consumer that has a result without a value. -/
def consuming (s : State) (consumer : String) (action : Holder → Action (Result Unit)) :
    State × Act Reply :=
  withObject s (s.consumers.get? consumer) fun h =>
    running s do return .ofUnit (← lift (action h))

/-- A step with a consumer that cannot fail. -/
def informing (s : State) (consumer : String) (action : Holder → Action Unit) :
    State × Act Reply :=
  withObject s (s.consumers.get? consumer) fun h =>
    running s do return .ofDone (← lift (action h))

/-- Gives a new transaction a name; the one that had it is let go. -/
def newTransaction (s : State) (name : String) : State × Act Reply :=
  let replaced := s.transactions.get? name
  let (t, s) := s.fresh
  let s := { s with transactions := s.transactions.insert name t, holds := s.holds.set t 1 }
  match replaced with
  | none => replying s .ok
  | some old => (s, do
    ask (.release old)
    return .ok)

/-- The queue that a new consumer is made over. -/
def sourceQueue (s : State) : QueueSource → Option (QueueId × State)
  | .own => some s.fresh
  | .named queue => (s.queues.get? queue).map fun q => (q, s)
  | .ofConsumer consumer => (s.consumers.get? consumer).map fun h => (h.queue, s)

def newConsumer (s : State) (name : String) (kind : ConsumerKind) (channel : String)
    (source : QueueSource) (config : Config) : State × Act Reply :=
  withObject s (s.channels.get? channel) fun channelId =>
    withObject s (sourceQueue s source) fun (queue, s) =>
      let (lifecycle, s) := s.fresh
      let holder := Holder.make kind lifecycle channelId queue config
      replying { s with consumers := s.consumers.insert name holder } .ok

/-- Waits for threads by name. -/
def join (s : State) (names : List String) (merge : Bool) : State × Act Reply :=
  let (threads, crew) := s.crew.callIn names
  let s := { s with crew }
  match threads with
  | none => replying s .badRequest
  | some threads => running s do return .joined merge (← ask (.await threads))

/-- The first state and the program of a command. -/
def begin (s : State) (spawned : Bool) : Command → State × Act Reply
  | .newChannel name =>
    let (id, s) := s.fresh
    replying
      { s with channels := s.channels.insert name id, booths := s.booths.set id { name } } .ok
  | .answerRule channel kind tags outcome => addRule s channel ⟨kind, tags, .answer outcome⟩
  | .hookRule channel kind tags steps => addRule s channel ⟨kind, tags, .hook steps⟩
  | .clearRules channel =>
    withObject s (s.channels.get? channel) fun id =>
      replying { s with booths := s.booths.modify id fun b => { b with rules := [] } } .ok
  | .newQueue name =>
    let (id, s) := s.fresh
    replying { s with queues := s.queues.insert name id } .ok
  | .queueEnqueue target d =>
    withObject s (s.target? target) fun q =>
      running s do return .ofUnit (← lift (queue q (.enqueue d)))
  | .queueTake target wait =>
    withObject s (s.target? target) fun q =>
      running s <|
        if wait then guarded spawned (s.queueOf q) .infinite do
          return .ofDelivery (← lift (queue q .dequeue))
        else do return .ofDelivery? (← lift (queue q .tryDequeue))
  | .queueClose target =>
    withObject s (s.target? target) fun q =>
      running s do return .closedNow (← lift (queue q .close))
  | .queueInspect target =>
    withObject s (s.target? target) fun q => replying s (.text (s.queueOf q).inspect)
  | .newConsumer name kind channel source config => newConsumer s name kind channel source config
  | .consumeOk consumer tag => consuming s consumer (·.basicConsumer.consumeOk tag)
  | .deliver consumer d => consuming s consumer (·.basicConsumer.deliver d)
  | .cancelByBroker consumer tag =>
    informing s consumer (·.basicConsumer.cancelByBroker tag)
  | .cancelConfirmed consumer tag =>
    informing s consumer (·.basicConsumer.cancelConfirmed tag)
  | .shutdown consumer reason => informing s consumer (·.basicConsumer.shutdown reason)
  | .cancel consumer => consuming s consumer (·.cancel)
  | .channelCall consumer call => consuming s consumer fun h => channel h.channel call
  | .inspectConsumer consumer =>
    withObject s (s.consumers.get? consumer) fun h =>
      replying s (.consumer (h.view (s.lifecycleOf h.consumer) (s.queueOf h.queue)))
  | .wait consumer timeout =>
    withObject s (s.consumers.get? consumer) fun h =>
      running s <| guarded spawned (s.queueOf h.queue) timeout do
        return .ready (← lift (h.waitForMessage timeout))
  | .dequeue consumer how transaction save =>
    withObject s (s.consumers.get? consumer) (dequeue s spawned how transaction save)
  | .receive consumer transaction save =>
    withObject s (s.consumers.get? consumer) (receive s spawned transaction save)
  | .deliveries consumer max =>
    withObject s (s.consumers.get? consumer) fun h => match h with
      | .plain c => running s (ask (.iterate spawned c max {} []))
      | _ => replying s .badRequest
  | .newTransaction name => newTransaction s name
  -- The participant knows its transaction by number, so it does not hold it.
  | .enlist transaction script =>
    withObject s (s.transactions.get? transaction) fun t =>
      let (id, s) := s.fresh
      let s := { s with participants := s.participants.set id { script with transaction := t } }
      holding s t do
        return .ofUnit (← lift (Client.transaction t (.enlist (.other id))))
  | .enlistDelivery transaction enlistment =>
    withObject s (s.enlistments.get? enlistment) fun e =>
      completing s transaction fun t => Client.transaction t (.enlist (.delivery e))
  | .commit transaction => completing s transaction Transaction.commit
  | .rollback transaction => completing s transaction Transaction.rollback
  | .markInDoubt transaction => completing s transaction Transaction.markInDoubt
  | .inspectTransaction transaction =>
    withObject s (s.transactions.get? transaction) fun t =>
      replying s (.transaction (s.transactionOf t).status (s.transactionOf t).ensureActive)
  | .dropTransaction transaction =>
    withObject s (s.transactions.get? transaction) fun t =>
      ({ s with transactions := s.transactions.erase transaction }, do
        ask (.release t)
        return .ok)
  | .newEnlistment name channel tag =>
    withObject s (s.channels.get? channel) fun id =>
      let flag := s.world.nextFlag
      let world := { s.world with settled := s.world.settled.set flag false, nextFlag := flag + 1 }
      replying { s with world, enlistments := s.enlistments.insert name ⟨flag, tag, id⟩ } .ok
  | .tell enlistment notice =>
    withObject s (s.enlistments.get? enlistment) fun e => tell s e notice
  | .newHandler name channel make =>
    withObject s (s.channels.get? channel) fun id =>
      replying { s with handlers := s.handlers.insert name (make id) } (.handler (make id))
  | .invoke handler source verdict =>
    withObject s (s.handlers.get? handler) fun h =>
      let d := match source with
        | .given d => d
        | .saved name otherwise => (s.saved.get? name).getD otherwise
      running s (invoke h d verdict)
  | .unreadable => replying s .unreadable
  | .spawn name step => replying { s with crew := s.crew.start name step } .spawned
  | .join names merge => join s names merge
  | .unknown => replying s .badRequest

/-! ## The outside -/

/-- Runs the steps that are hooked into a call, then gives its answer. -/
def runHooks (channel : ChannelId) (answer : Result Unit) :
    List (String × Command) → Act (Result Unit)
  | [] => do
    ask (.rest channel)
    return answer
  | (label, command) :: rest => do
    let reply ← ask (.perform false command)
    ask (.report (.hook label reply))
    runHooks channel answer rest

/-- What a participant sees when it uses its transaction. -/
def look (t : TransactionId) (id : ParticipantId) : Act Sight := do
  let seen : Transaction ← lift (Client.transaction t .look)
  let ensure ← lift (Client.transaction t .ensureActive)
  let commit ← lift (Transaction.commit t)
  let rollback ← lift (Transaction.rollback t)
  let inDoubt ← lift (Transaction.markInDoubt t)
  let enlist ← lift (Client.transaction t (.enlist (.other id)))
  let active := decide (seen.status = .active)
  let enlisted := seen.participants.length
  return { status := seen.status, active, enlisted, ensure, commit, rollback, inDoubt, enlist }

/-- The answer of a scripted participant. -/
def ParticipantScript.answer (p : ParticipantScript) (notice : Notice) : Result Unit :=
  Transaction.resultOf <| match notice with
    | .prepare => if p.plain then none else p.prepare
    | .commit => p.commit
    | .rollback => p.rollback
    | .inDoubt => none

/-- Tells a scripted participant. -/
def notify (id : ParticipantId) (p : ParticipantScript) (notice : Notice) : Act (Result Unit) := do
  let unheard := p.plain && (notice = .prepare || notice = .inDoubt)
  unless unheard do
    let probe ←
      if p.probes then
        if ← ask (.isGone p.transaction) then pure (some Probe.gone)
        else some <$> Probe.seen <$> look p.transaction id
      else pure none
    ask (.report (.participant p.name notice probe))
  return p.answer notice

/-- Goes on with an iteration over deliveries. -/
def iterate (spawned : Bool) (q : Queue Delivery) (c : Consumer) (left : Option Nat)
    (it : Queue.Iterator) (got : List (Result UInt64)) : Act Reply :=
  if left = some 0 then .done (.items got.reverse .full)
  else if wouldBlock spawned q .infinite then .done (.items got.reverse .wouldBlock)
  else do
    let (it, taken) ← lift (c.nextDelivery it)
    match taken with
    | some taken =>
      ask (.iterate spawned c (left.map (· - 1)) it (taken.map (·.tag) :: got))
    | none =>
      let (_, taken) ← lift (c.nextDelivery it)
      return .items got.reverse (.ended taken.isSome)

/-- Answers a call to the outside. -/
def serveOutside (s : State) : (o : Outside) → Served interface State o.Answer
  | .channel id call =>
    let booth := s.booths.get id
    let failure := booth.failure call
    let answer := Transaction.resultOf failure
    let s := s.record (.call booth.name call failure)
    match booth.hooks call with
    | [] => .answers s .nobody answer
    | hooks =>
      .runs { s with booths := s.booths.modify id fun b => { b with busy := true } }
        (runHooks id answer hooks)
  | .log level text =>
    .answers (if s.logging then s.record (.log level text) else s) .nobody ()

instance : Server interface State where
  serve visit s
    | .client (.under lock) => s.world.serve visit (fun world => { s with world }) lock
    | .client (.outside o) => serveOutside s o
    | .client (.notify (.delivery e) notice) => .runs s (lift (e.notify notice))
    | .client (.notify (.other id) notice) =>
      .runs s (notify id (s.participants.get id) notice)
    | .perform spawned c =>
      let (s, act) := begin s spawned c
      .runs s act
    | .iterate spawned c left it got =>
      .runs s (iterate spawned (s.queueOf c.queue) c left it got)
    | .save name d => .answers { s with saved := s.saved.insert name d } .nobody ()
    | .release t =>
      let s := s.letGo t
      if s.holds.get t = 0 then .runs s (lift (Transaction.discard t))
      else .answers s .nobody ()
    | .isGone t => .answers s .nobody (decide (s.holds.get t = 0))
    | .isSettled flag => .answers s .nobody (s.world.settled.get flag)
    | .report e => .answers (s.record e) .nobody ()
    | .rest id =>
      .answers { s with booths := s.booths.modify id fun b => { b with busy := false } } .nobody ()
    | .ended thread reply =>
      .answers { s with crew := s.crew.finish thread reply } (.all crewCondition) ()
    | .await threads =>
      match s.crew.results? threads with
      | some replies => .answers s .nobody replies
      | none => .sleeps s crewCondition none

/-! ## Running -/

/-- The program of a thread on the side. -/
def side (thread : Nat) (c : Command) : Act Reply := do
  let reply ← ask (.perform true c)
  ask (.ended thread reply)
  return reply

/-- What is seen after a step: the events since the last report and the
objects that the step names. Nothing is while a thread is outstanding. -/
def observe (step : Step) (s : State) : Option Report × State :=
  if s.crew.isIn then (some (s.report step.subjects), { s with events := [] }) else (none, s)

/-- How a session runs. -/
def conduct : Conduct interface State Step Reply (Option Report) where
  program step := ask (.perform false step.command)
  recruit s := s.crew.next?.map fun (thread, c, crew) => (side thread c, { s with crew })
  observe := observe

/-- The replies to `steps` in a new session, each with a report unless a
thread is outstanding. -/
def run (fuel : Nat) (logging : Bool) (steps : List Step) :
    List (Option Reply × Option Report) :=
  conduct.run fuel { logging } steps

end MessageIntake.Session
