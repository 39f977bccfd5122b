import MessageIntake.Proofs.Client.Setting

/-!
# Who uses a transaction

The calls on a transaction, and the programs that use it by these calls
and by nothing else (`Uses`). Participants are such programs too: while
they are told, they may enlist others and complete the transaction
again. Every completion starts with the section `begin` and ends there
if that fails (`Completion.returns_refusal`).
-/

namespace MessageIntake

open Client

namespace Transaction

/-- The calls that complete a transaction. -/
inductive Completion where
  | commit
  | rollback
  | markInDoubt
  deriving DecidableEq, Repr

/-- The program of a completion. -/
def Completion.action (t : TransactionId) : Completion → Action (Result Unit)
  | .commit => Transaction.commit t
  | .rollback => Transaction.rollback t
  | .markInDoubt => Transaction.markInDoubt t

/-- What is done with a transaction from outside. -/
inductive Call where
  | enlist (participant : Participant)
  | complete (how : Completion)
  /-- Its last user lets it go. -/
  | discard
  deriving DecidableEq, Repr

/-- The program of a call. -/
def Call.action (t : TransactionId) : Call → Action (Result Unit)
  | .enlist participant => Client.transaction t (.enlist participant)
  | .complete how => how.action t
  | .discard => do
    Transaction.discard t
    return .ok ()

/-- **A completion that is refused does nothing more**: it asks for the
section `begin`, and an error there is its result. -/
theorem Completion.returns_refusal (how : Completion) (t : TransactionId) :
    ∃ next : Result (List Participant) → Action (Result Unit),
      how.action t = .ask (.under (.transaction t .begin)) next ∧
        ∀ e, next (.error e) = .done (.error e) := by
  cases how <;> exact ⟨_, rfl, fun _ => rfl⟩

/-! ## Following a discipline through a completion -/

section Follows

variable {γ : Type} {D : Discipline interface γ} {Kind : γ → Prop} {g : γ}

theorem prepareAll_keeps (all : List Participant)
    (htell : ∀ p ∈ all, D.Keeps Kind (.notify p .prepare)) (hg : Kind g) :
    (prepareAll all).Follows D (fun _ g' => Kind g') g := by
  induction all generalizing g with
  | nil => exact hg
  | cons p rest ih =>
    have hrest := fun q hq => htell q (List.mem_cons_of_mem _ hq)
    refine (htell p List.mem_cons_self).follows hg fun answer g' hg' => ?_
    cases answer with
    | ok => exact ih hrest hg'
    | error => exact hg'

theorem notifyAll_keeps (notice : Notice) (all : List Participant)
    (htell : ∀ p ∈ all, D.Keeps Kind (.notify p notice))
    (hlog : ∀ level text, D.Keeps Kind (.outside (.log level text))) (hg : Kind g) :
    (notifyAll notice all).Follows D (fun _ g' => Kind g') g := by
  induction all generalizing g with
  | nil => exact hg
  | cons p rest ih =>
    have hrest := fun q hq => htell q (List.mem_cons_of_mem _ hq)
    refine (htell p List.mem_cons_self).follows hg fun answer g' hg' => ?_
    cases answer with
    | ok => exact ih hrest hg'
    | error =>
      refine (hlog _ _).follows hg' fun _ g' hg' => ?_
      exact (ih hrest hg').bind fun _ _ hg' => hg'

theorem doubtAll_keeps (all : List Participant)
    (htell : ∀ p ∈ all, D.Keeps Kind (.notify p .inDoubt)) (hg : Kind g) :
    (doubtAll all).Follows D (fun _ g' => Kind g') g := by
  induction all generalizing g with
  | nil => exact hg
  | cons p rest ih =>
    have hrest := fun q hq => htell q (List.mem_cons_of_mem _ hq)
    exact (htell p List.mem_cons_self).follows hg fun _ g' hg' => ih hrest hg'

/-- **Whoever completes the transaction `t`** has a note of a certain kind
once it has the participants in hand, which telling them does not
change. -/
structure Tends (D : Discipline interface γ) (t : TransactionId)
    (Kind : List Participant → γ → Prop) (g : γ) : Prop where
  begin : D.Permits g (.under (.transaction t .begin))
  begun : ∀ all g', D.Leads g (.under (.transaction t .begin)) (.ok all) g' → Kind all g'
  refused : ∀ e g', D.Leads g (.under (.transaction t .begin)) (.error e) g' → Kind [] g'
  abandon : D.Permits g (.under (.transaction t .abandon))
  abandoned : ∀ all g', D.Leads g (.under (.transaction t .abandon)) all g' → Kind all g'
  notify : ∀ all, ∀ p ∈ all, ∀ notice, D.Keeps (Kind all) (.notify p notice)
  log : ∀ all level text, D.Keeps (Kind all) (.outside (.log level text))
  finish : ∀ all outcome, D.Keeps (Kind all) (.under (.transaction t (.finish outcome)))

variable {t : TransactionId} {Kinds : List Participant → γ → Prop}

/-- **A completion follows the discipline.** -/
theorem Completion.keeps (h : Tends D t Kinds g) (how : Completion) :
    (how.action t).Follows D (fun _ g' => ∃ all, Kinds all g') g := by
  have htold : ∀ all notice g', Kinds all g' →
      (notifyAll notice all).Follows D (fun _ g' => Kinds all g') g' := fun all notice g' hg' =>
    notifyAll_keeps notice all (fun p hp => h.notify all p hp notice) (h.log all) hg'
  cases how with
  | commit =>
    refine ⟨h.begin, fun answer g' hlead => ?_⟩
    cases answer with
    | error e => exact ⟨[], h.refused e g' hlead⟩
    | ok all =>
      refine (prepareAll_keeps all (fun p hp => h.notify all p hp .prepare)
        (h.begun all g' hlead)).bind fun prepared g' hg' => ?_
      cases prepared with
      | ok =>
        refine (htold all .commit g' hg').bind fun failure g' hg' => ?_
        refine (h.finish all _).follows hg' fun _ g' hg' => ?_
        exact (h.log all _ _).follows hg' fun _ g' hg' => ⟨all, hg'⟩
      | error cause =>
        refine (h.log all _ _).follows hg' fun _ g' hg' => ?_
        refine (htold all .rollback g' hg').bind fun failure g' hg' => ?_
        refine (h.finish all _).follows hg' fun _ g' hg' => ?_
        cases failure <;> exact ⟨all, hg'⟩
  | rollback =>
    refine ⟨h.begin, fun answer g' hlead => ?_⟩
    cases answer with
    | error e => exact ⟨[], h.refused e g' hlead⟩
    | ok all =>
      refine (htold all .rollback g' (h.begun all g' hlead)).bind fun failure g' hg' => ?_
      refine (h.finish all _).follows hg' fun _ g' hg' => ?_
      exact (h.log all _ _).follows hg' fun _ g' hg' => ⟨all, hg'⟩
  | markInDoubt =>
    refine ⟨h.begin, fun answer g' hlead => ?_⟩
    cases answer with
    | error e => exact ⟨[], h.refused e g' hlead⟩
    | ok all =>
      refine (doubtAll_keeps all (fun p hp => h.notify all p hp .inDoubt)
        (h.begun all g' hlead)).bind fun _ g' hg' => ?_
      refine (h.finish all _).follows hg' fun _ g' hg' => ?_
      exact (h.log all _ _).follows hg' fun _ g' hg' => ⟨all, hg'⟩

theorem discard_keeps (h : Tends D t Kinds g) :
    (discard t).Follows D (fun _ g' => ∃ all, Kinds all g') g := by
  refine ⟨h.abandon, fun all g' hlead => ?_⟩
  have hg' := h.abandoned all g' hlead
  dsimp only [Program.done_bind]
  split
  · exact ⟨all, hg'⟩
  · refine (h.log all _ _).follows hg' fun _ g' hg' => ?_
    refine (notifyAll_keeps .rollback all (fun p hp => h.notify all p hp .rollback)
      (h.log all) hg').bind fun failure g' hg' => ?_
    cases failure with
    | none => exact ⟨all, hg'⟩
    | some => exact (h.log all _ _).follows hg' fun _ g' hg' => ⟨all, hg'⟩

end Follows

/-- Whether a section leaves alone what a completion is about: the
status, and the participants that are enlisted already. -/
def Section.isUse : Section → Bool
  | .ensureActive | .enlist _ | .look => true
  | .begin | .finish _ | .abandon => false

end Transaction

/-- Requests that neither tell participants nor belong to a completion of
the transaction `t`. -/
def Client.Request.Spares (t : TransactionId) : Request → Prop
  | .under (.transaction id part) => id = t → part.isUse
  | .under _ | .outside _ => True
  | .notify _ _ => False

/-- **A program that uses the transaction `t`**: it completes or discards
`t`, any number of times, and what it asks apart from that is allowed. -/
inductive Uses (t : TransactionId) (Allowed : Request → Prop) {α : Type} : Action α → Prop
  | done (a : α) : Uses t Allowed (.done a)
  | ask {r : Request} {next : r.Answer → Action α} :
    Allowed r → (∀ a, Uses t Allowed (next a)) → Uses t Allowed (.ask r next)
  | complete (how : Transaction.Completion) {next : Result Unit → Action α} :
    (∀ a, Uses t Allowed (next a)) → Uses t Allowed ((how.action t).bind next)
  | discard {next : Unit → Action α} :
    (∀ a, Uses t Allowed (next a)) → Uses t Allowed ((Transaction.discard t).bind next)

namespace Uses

variable {t : TransactionId} {Allowed Allowed' : Request → Prop} {α β : Type}

theorem mono {p : Action α} (h : Uses t Allowed p) (hle : ∀ r, Allowed r → Allowed' r) :
    Uses t Allowed' p := by
  induction h with
  | done a => exact .done a
  | ask hr _ ih => exact .ask (hle _ hr) ih
  | complete how _ ih => exact .complete how ih
  | discard _ ih => exact .discard ih

theorem bind {p : Action α} {f : α → Action β} (h : Uses t Allowed p)
    (hf : ∀ a, Uses t Allowed (f a)) : Uses t Allowed (p.bind f) := by
  induction h with
  | done a => exact hf a
  | ask hr _ ih => exact .ask hr ih
  | complete how _ ih =>
    rw [Program.bind_assoc]
    exact .complete how ih
  | discard _ ih =>
    rw [Program.bind_assoc]
    exact .discard ih

/-- A call by itself. -/
theorem ofCall (c : Transaction.Call) : Uses t (Request.Spares t) (c.action t) := by
  cases c with
  | enlist p => exact .ask (fun _ => rfl) .done
  | complete how =>
    have h : Uses t (Request.Spares t) ((how.action t).bind .done) := .complete how .done
    rwa [Program.bind_done] at h
  | discard => exact .discard fun _ => .done _

end Uses

/-- An enlistment leaves alone the transaction that tells it. -/
theorem Enlistment.uses (e : Enlistment) (t : TransactionId) (notice : Notice) :
    Uses t (Request.Spares t) (e.notify notice) := by
  have hsettle : ∀ call, Uses t (Request.Spares t) (e.settle call) := by
    refine fun call => .ask trivial fun fresh => ?_
    cases fresh with
    | true => exact .ask trivial .done
    | false => exact .done _
  cases notice with
  | prepare => exact .done _
  | commit | rollback => exact hsettle _
  | inDoubt => exact .ask trivial fun _ => .done _

end MessageIntake
