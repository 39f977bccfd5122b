import MessageIntake.Proofs.Machine.Discipline
import Mathlib.Algebra.Order.Group.Multiset
import Mathlib.Tactic.Abel

/-!
# Books that balance

Things come in by some events, stay with a thread for a while, and go
out by other events. That none is lost or doubled is an equation of
multisets: what came in is what the threads hold by their notes and what
went out (`Balanced`). It is kept by every event that balances by
itself, whichever thread it is of.
-/

namespace MessageIntake

variable {I : Interface} {σ γ κ : Type}

theorem filterMap_cons_toList {α β : Type} (read : α → Option β) (a : α) (l : List α) :
    (a :: l).filterMap read = (read a).toList ++ l.filterMap read := by
  cases h : read a <;> simp [h]

/-- A reading that is one of two, never both, reads what these read. -/
theorem coe_filterMap_split {α : Type} {both left right : α → Option κ}
    (h : ∀ a, (both a).toList = (left a).toList ++ (right a).toList) (l : List α) :
    ((l.filterMap both : List κ) : Multiset κ) = (l.filterMap left : List κ) +
      (l.filterMap right : List κ) := by
  induction l with
  | nil => rfl
  | cons a l ih =>
    simp only [filterMap_cons_toList, ← Multiset.coe_add, ih, h a]
    abel

/-- What the threads hold after one note is replaced. -/
theorem filterMap_set_add (hold : γ → Option κ) {gs : List γ} {i : Nat} {g : γ} (g' : γ)
    (h : gs[i]? = some g) :
    (((gs.set i g').filterMap hold : List κ) : Multiset κ) + ((hold g).toList : List κ) =
      (gs.filterMap hold : List κ) + ((hold g').toList : List κ) := by
  obtain ⟨hi, rfl⟩ := List.getElem?_eq_some_iff.mp h
  have hset : gs.set i g' = gs.take i ++ g' :: gs.drop (i + 1) :=
    List.set_eq_take_append_cons_drop.trans (if_pos hi)
  have hgs : gs = gs.take i ++ gs[i] :: gs.drop (i + 1) := by
    rw [List.getElem_cons_drop, List.take_append_drop]
  rw [hset]
  conv_rhs => rw [hgs]
  simp only [List.filterMap_append, filterMap_cons_toList, ← Multiset.coe_add]
  abel

/-- What was read by the end, of a last thing that does not supply it, was
supplied before. -/
theorem mem_of_concat_le {α : Type} {used supplied : α → Option κ} {l : List α} {a : α} {k : κ}
    (hle : (((l ++ [a]).filterMap used : List κ) : Multiset κ) ≤
      ((l ++ [a]).filterMap supplied : List κ))
    (hused : used a = some k) (hnone : supplied a = none) : k ∈ l.filterMap supplied := by
  have hmem : k ∈ (l ++ [a]).filterMap used :=
    List.mem_filterMap.mpr ⟨a, List.mem_append_right _ (List.mem_singleton_self a), hused⟩
  have hsupplied := Multiset.subset_of_le hle (Multiset.mem_coe.mpr hmem)
  rw [Multiset.mem_coe, filterMap_concat, hnone] at hsupplied
  simpa using hsupplied

theorem add_balance {M : Type} [AddCancelCommMonoid M] {held held' out came went g g' : M}
    (hset : held' + g = held + g') (hevent : came + g = g' + went) :
    held + out + came = held' + (out + went) := by
  refine add_right_cancel (b := g) ?_
  calc held + out + came + g = held + out + (came + g) := add_assoc _ _ _
    _ = held + g' + (out + went) := by
      rw [hevent]
      abel
    _ = held' + (out + went) + g := by
      rw [← hset]
      abel

/-- **What came in is held or went out.** -/
def Balanced (inflow outflow : Event I σ → Option κ) (hold : γ → Option κ)
    (trace : List (Event I σ)) (gs : List γ) : Prop :=
  ((trace.filterMap inflow : List κ) : Multiset κ) =
    (gs.filterMap hold : List κ) + (trace.filterMap outflow : List κ)

/-- An event that balances by itself. -/
theorem Balanced.step {inflow outflow : Event I σ → Option κ} {hold : γ → Option κ}
    {trace : List (Event I σ)} {gs : List γ} (h : Balanced inflow outflow hold trace gs) {i : Nat}
    {g g' : γ} (hg : gs[i]? = some g) {e : Event I σ}
    (he : (inflow e).toList ++ (hold g).toList = (hold g').toList ++ (outflow e).toList) :
    Balanced inflow outflow hold (trace ++ [e]) (gs.set i g') := by
  have hset := filterMap_set_add hold g' hg
  have hevent := congrArg (fun l : List κ => (l : Multiset κ)) he
  simp only [← Multiset.coe_add] at hevent
  unfold Balanced at h ⊢
  simp only [filterMap_concat, ← Multiset.coe_add]
  rw [h]
  exact add_balance hset hevent

end MessageIntake
