/-!
# Programs over atomic requests

A program is a tree of requests: it either has its result, or asks its
surroundings for one thing and goes on with the answer. Everything a
program does to shared state is in its requests, so the atomic steps of
a concurrent run are exactly the requests, and a program can be
suspended between any two of them.

The laws here are those of a monad (`bind_assoc`, `done_bind`,
`bind_done`) and that substituting programs for requests commutes with
sequencing (`substitute_bind`). `Asks` is for what all of a program's
requests have in common.
-/

namespace MessageIntake

/-- What programs may ask of their surroundings: the requests, and the
type of the answer to each. -/
structure Interface where
  Request : Type
  Answer : Request → Type

/-- A computation that asks requests of `I` one at a time and ends with
a value of `α`. -/
inductive Program (I : Interface) (α : Type) : Type where
  | done (result : α)
  | ask (request : I.Request) (next : I.Answer request → Program I α)

namespace Program

variable {I J : Interface} {α β γ : Type}

/-- Runs `p`, then the program that `f` makes of its result. -/
def bind : Program I α → (α → Program I β) → Program I β
  | .done a, f => f a
  | .ask r k, f => .ask r fun answer => (k answer).bind f

instance : Monad (Program I) where
  pure := .done
  bind := bind

/-- The program that asks one request and ends with its answer. -/
def request (r : I.Request) : Program I (I.Answer r) :=
  .ask r .done

/-- Asks `f r` in place of each request `r`. -/
def substitute (f : (r : I.Request) → Program J (I.Answer r)) : Program I α → Program J α
  | .done a => .done a
  | .ask r k => (f r).bind fun answer => (k answer).substitute f

@[simp] theorem done_bind (a : α) (f : α → Program I β) : (Program.done a).bind f = f a := rfl

@[simp] theorem ask_bind (r : I.Request) (k : I.Answer r → Program I α) (f : α → Program I β) :
    (Program.ask r k).bind f = .ask r fun answer => (k answer).bind f := rfl

@[simp] theorem bind_done (p : Program I α) : p.bind .done = p := by
  induction p with
  | done => rfl
  | ask r k ih => simp [ih]

theorem bind_assoc (p : Program I α) (f : α → Program I β) (g : β → Program I γ) :
    (p.bind f).bind g = p.bind fun a => (f a).bind g := by
  induction p with
  | done => rfl
  | ask r k ih => simp [ih]

@[simp] theorem pure_eq (a : α) : (pure a : Program I α) = .done a := rfl

@[simp] theorem bind_eq (p : Program I α) (f : α → Program I β) : (p >>= f) = p.bind f := rfl

instance : LawfulMonad (Program I) :=
  LawfulMonad.mk' (Program I) (fun p => bind_done p) (fun _ _ => rfl) bind_assoc

@[simp] theorem substitute_done (f : (r : I.Request) → Program J (I.Answer r)) (a : α) :
    (Program.done a).substitute f = .done a := rfl

@[simp] theorem substitute_request (f : (r : I.Request) → Program J (I.Answer r))
    (r : I.Request) : (request r).substitute f = f r := by
  simp [request, substitute]

/-- Substitution commutes with sequencing. -/
theorem substitute_bind (f : (r : I.Request) → Program J (I.Answer r))
    (p : Program I α) (g : α → Program I β) :
    (p.bind g).substitute f = (p.substitute f).bind fun a => (g a).substitute f := by
  induction p with
  | done => rfl
  | ask r k ih => simp [substitute, ih, bind_assoc]

/-- **A program that asks nothing but what is allowed.** -/
inductive Asks (Allowed : I.Request → Prop) : Program I α → Prop
  | done (a : α) : Asks Allowed (.done a)
  | ask {r : I.Request} {next : I.Answer r → Program I α} :
    Allowed r → (∀ a, Asks Allowed (next a)) → Asks Allowed (.ask r next)

theorem Asks.bind {Allowed : I.Request → Prop} {p : Program I α} {f : α → Program I β}
    (h : p.Asks Allowed) (hf : ∀ a, (f a).Asks Allowed) : (p.bind f).Asks Allowed := by
  induction h with
  | done a => exact hf a
  | ask hr _ ih => exact .ask hr ih

/-- What is allowed may be more. -/
theorem Asks.mono {Allowed More : I.Request → Prop} {p : Program I α} (h : p.Asks Allowed)
    (hmore : ∀ r, Allowed r → More r) : p.Asks More := by
  induction h with
  | done a => exact .done a
  | ask hr _ ih => exact .ask (hmore _ hr) ih

end Program

end MessageIntake
