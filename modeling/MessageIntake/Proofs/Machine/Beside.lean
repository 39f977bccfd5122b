import MessageIntake.Proofs.Machine.Schedule
import Mathlib.Data.List.Forall2

/-!
# Threads beside each other

Two machines are compared by their threads, each beside the one of the same
number. Here is what every such comparison needs: that a change of both keeps
them beside each other, that a signal reaches the same threads in both if those
that sleep in the one sleep in the other (`Phase.Together.deliver`), and that a
waker of the one can be imitated in the other (`Machine.Waker.imitating_eq`).
A comparison of runs then comes from one of moves (`exists_inStep`).
-/

namespace MessageIntake

variable {I : Interface} {σ α β : Type}

/-! ## Lists -/

section Lists

variable {P : α → β → Prop} {xs : List α} {ys : List β} {x : α} {y : β} {i : Nat}

theorem exists_right_of_getElem? (h : List.Forall₂ P xs ys) (hx : xs[i]? = some x) :
    ∃ y, ys[i]? = some y ∧ P x y := by
  induction h generalizing i with
  | nil => cases hx
  | cons hab _ ih =>
    cases i with
    | zero =>
      cases hx
      exact ⟨_, rfl, hab⟩
    | succ i => exact ih hx

theorem exists_left_of_getElem? (h : List.Forall₂ P xs ys) (hy : ys[i]? = some y) :
    ∃ x, xs[i]? = some x ∧ P x y :=
  exists_right_of_getElem? (P := flip P) h.flip hy

theorem forall₂_modify {f : α → α} {g : β → β} (h : List.Forall₂ P xs ys)
    (hfg : ∀ x y, P x y → P (f x) (g y)) (i : Nat) :
    List.Forall₂ P (xs.modify i f) (ys.modify i g) := by
  induction h generalizing i with
  | nil => simp
  | cons hab hrest ih =>
    cases i with
    | zero => exact .cons (hfg _ _ hab) hrest
    | succ i => exact .cons hab (ih i)

theorem forall₂_set (h : List.Forall₂ P xs ys) (hxy : P x y) (i : Nat) :
    List.Forall₂ P (xs.set i x) (ys.set i y) := by
  induction h generalizing i with
  | nil => exact .nil
  | cons hab hrest ih =>
    cases i with
    | zero => exact .cons hxy hrest
    | succ i => exact .cons hab (ih i)

/-- A change on one side only. -/
theorem forall₂_set_left (h : List.Forall₂ P xs ys) (hy : ys[i]? = some y) (hxy : P x y) :
    List.Forall₂ P (xs.set i x) ys := by
  have hset := forall₂_set h hxy i
  rwa [set_eq_self hy] at hset

end Lists

/-- A translation of lists that goes on as the list does. -/
def InStep (translate : List α → List β) : Prop :=
  ∀ s a, translate s <+: translate (s ++ [a])

/-- Where every step can be matched, there is a translation that matches. -/
theorem exists_inStep (P : List α → List β → Prop) (first : List β) (hfirst : P [] first)
    (hstep : ∀ s t a, P s t → ∃ more, P (s ++ [a]) (t ++ more)) :
    ∃ translate : List α → List β, InStep translate ∧ ∀ s, P s (translate s) := by
  choose more hmore using hstep
  let matched (s : List α) : {t // P s t} :=
    s.reverseRecOn ⟨first, hfirst⟩ fun s a t => ⟨t.1 ++ more s t.1 a t.2, hmore s t.1 a t.2⟩
  refine ⟨fun s => (matched s).1, fun s a => ⟨more s (matched s).1 a (matched s).2, ?_⟩,
    fun s => (matched s).2⟩
  simp only [matched, List.reverseRecOn_concat]

/-! ## Threads -/

/-- **Threads that sleep and wake together.** -/
structure Phase.Together (P : Phase I α → Phase I β → Prop) : Prop where
  ticket?_eq {x : Phase I α} {y : Phase I β} : P x y → ∀ c, x.ticket? c = y.ticket? c
  wake {x : Phase I α} {y : Phase I β} : P x y → P x.wake y.wake

namespace Phase.Together

variable {P : Phase I α → Phase I β → Prop} {xs : List (Phase I α)} {ys : List (Phase I β)}

/-- The same threads sleep on a condition, since as long. -/
theorem getElem?_ticket? (hP : Together P) (h : List.Forall₂ P xs ys) (i : Nat) (c : Condition) :
    xs[i]?.bind (Phase.ticket? c) = ys[i]?.bind (Phase.ticket? c) := by
  induction h generalizing i with
  | nil => rfl
  | cons hxy _ ih =>
    cases i with
    | zero => exact hP.ticket?_eq hxy c
    | succ i => exact ih i

/-- A signal reaches threads that stand beside each other. -/
theorem deliver (hP : Together P) (h : List.Forall₂ P xs ys) {choose : Machine.Chooser I α}
    {choose' : Machine.Chooser I β} (hsame : ∀ c, choose xs c = choose' ys c) (signal : Signal) :
    List.Forall₂ P (Machine.deliver choose signal xs) (Machine.deliver choose' signal ys) := by
  cases signal with
  | nobody => exact h
  | one c =>
    simp only [Machine.deliver, hsame]
    cases choose' ys c with
    | none => exact h
    | some i => exact forall₂_modify h (fun _ _ hxy => hP.wake hxy) i
  | all c =>
    refine List.forall₂_map_left_iff.mpr (List.forall₂_map_right_iff.mpr (h.imp ?_))
    intro x y hxy
    rw [hP.ticket?_eq hxy c]
    split
    · exact hP.wake hxy
    · exact hxy

end Phase.Together

/-! ## Wakers -/

namespace Machine

/-- A way to wake one sleeper: the one that `choice` says, if it sleeps. -/
def Waker.imitating (choice : Condition → Option Nat) : Waker I α where
  choose threads c :=
    ((choice c).filter fun i => (threads[i]?.bind (Phase.ticket? c)).isSome).or
      (longestSleeper threads c)
  finds_sleeper {threads c i} h := by
    rcases Option.or_eq_some_iff.mp h with h | ⟨-, h⟩
    · obtain ⟨-, hsleeps⟩ := Option.filter_eq_some_iff.mp h
      cases hi : threads[i]? with
      | none => simp [hi] at hsleeps
      | some phase => exact ⟨phase, rfl, by simpa [hi] using hsleeps⟩
    · exact Waker.longest.finds_sleeper h
  finds_any h := Waker.longest.finds_any (Option.or_eq_none_iff.mp h).2

/-- Where the same threads sleep, the imitation chooses as its model. -/
theorem Waker.imitating_eq (w : Waker I α) {xs : List (Phase I α)} {ys : List (Phase I β)}
    (h : ∀ (i : Nat) c, xs[i]?.bind (Phase.ticket? c) = ys[i]?.bind (Phase.ticket? c))
    (c : Condition) : (imitating (w.choose xs)).choose ys c = w.choose xs c := by
  cases hchoice : w.choose xs c with
  | some i =>
    obtain ⟨x, hx, hticket⟩ := w.finds_sleeper hchoice
    have hsleeps : (ys[i]?.bind (Phase.ticket? c)).isSome := by
      rw [← h, hx]
      exact hticket
    simp [imitating, hchoice, hsleeps]
  | none =>
    simp only [imitating, hchoice, Option.filter_none, Option.none_or]
    refine Option.eq_none_iff_forall_ne_some.mpr fun i hi => ?_
    obtain ⟨y, hy, hticket⟩ := Waker.longest.finds_sleeper hi
    have hnone : ys[i]?.bind (Phase.ticket? c) = none := by
      rw [← h, Option.bind_eq_none_iff]
      exact fun x hx => w.finds_any hchoice x (List.mem_of_getElem? hx)
    rw [hy, Option.bind_some] at hnone
    rw [hnone] at hticket
    cases hticket

end Machine

end MessageIntake
