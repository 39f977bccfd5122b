/-!
# Stores

A store holds a value for every number; one that was never set is the
default. `get_set` is the law of a store.
-/

namespace MessageIntake

/-- A value for every number, of which finitely many were set. -/
structure Store (α : Type) where
  cells : Array α := #[]

namespace Store

variable {α : Type} [Inhabited α]

instance : Inhabited (Store α) := ⟨{}⟩

def get (s : Store α) (i : Nat) : α := s.cells.getD i default

/-- Sets the value of `i`. -/
def set (s : Store α) (i : Nat) (a : α) : Store α :=
  if i < s.cells.size then ⟨s.cells.setIfInBounds i a⟩
  else ⟨(s.cells ++ Array.replicate (i - s.cells.size) default).push a⟩

/-- Changes the value of `i`. -/
def modify (s : Store α) (i : Nat) (f : α → α) : Store α := s.set i (f (s.get i))

/-- **What was set is found, and nothing else has changed.** -/
theorem get_set (s : Store α) (i j : Nat) (a : α) :
    (s.set i a).get j = if j = i then a else s.get j := by
  simp only [get, set, Array.getD_eq_getD_getElem?]
  split
  · by_cases h : j = i <;> grind
  · by_cases h : j = i <;> grind

@[simp] theorem get_set_self (s : Store α) (i : Nat) (a : α) : (s.set i a).get i = a := by
  simp [get_set]

theorem get_set_of_ne (s : Store α) {i j : Nat} (h : j ≠ i) (a : α) :
    (s.set i a).get j = s.get j := by
  simp [get_set, h]

theorem size_set (s : Store α) (i : Nat) (a : α) :
    (s.set i a).cells.size = max s.cells.size (i + 1) := by
  unfold set
  split
  · simp
    omega
  · simp
    omega

/-- To put back what is there changes nothing, once there is room for it. -/
theorem set_get_self (s : Store α) {i : Nat} (h : i < s.cells.size) : s.set i (s.get i) = s := by
  have hcells : s.cells.setIfInBounds i (s.get i) = s.cells := by
    simp [get, Array.setIfInBounds, h]
  rw [set, if_pos h, hcells]

end Store

end MessageIntake
