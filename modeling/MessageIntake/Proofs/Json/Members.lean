import Mathlib.Data.List.Nodup

/-!
# Members by key

A list of members is a table if no key stands twice. In a table the
value of a key is found by the key (`Distinct.lookup`), whatever stands
beside it under other keys (`lookup_filter`).
-/

namespace MessageIntake

variable {β : Type}

/-- No key stands twice. -/
def Distinct (members : List (String × β)) : Prop := (members.map Prod.fst).Nodup

theorem Distinct.nil : Distinct ([] : List (String × β)) := List.nodup_nil

theorem mem_of_lookup {key : String} {value : β} {members : List (String × β)}
    (h : members.lookup key = some value) : (key, value) ∈ members := by
  induction members with
  | nil => cases h
  | cons head rest ih =>
    obtain ⟨k, v⟩ := head
    rw [List.lookup_cons] at h
    split at h <;> grind

/-- In a table the value of a key is found by the key. -/
theorem Distinct.lookup {key : String} {value : β} {members : List (String × β)}
    (hdistinct : Distinct members) (h : (key, value) ∈ members) :
    members.lookup key = some value := by
  induction members with
  | nil => cases h
  | cons head rest ih =>
    obtain ⟨k, v⟩ := head
    obtain ⟨hk, hrest⟩ := List.nodup_cons.mp hdistinct
    rcases List.mem_cons.mp h with heq | hmem
    · cases heq
      simp
    · have hne : key ≠ k := by
        rintro rfl
        exact hk (List.mem_map.mpr ⟨_, hmem, rfl⟩)
      rw [List.lookup_cons, beq_false_of_ne hne]
      exact ih hrest hmem

/-- In a table a key has one value. -/
theorem Distinct.unique {key : String} {value value' : β} {members : List (String × β)}
    (hdistinct : Distinct members) (h : (key, value) ∈ members) (h' : (key, value') ∈ members) :
    value = value' :=
  Option.some.inj ((hdistinct.lookup h).symm.trans (hdistinct.lookup h'))

/-- A selection of keys does not matter to a key that is selected. -/
theorem lookup_filter (select : String → Bool) {key : String} (h : select key)
    (members : List (String × β)) :
    (members.filter fun m => select m.1).lookup key = members.lookup key := by
  induction members with
  | nil => rfl
  | cons head rest ih =>
    obtain ⟨k, v⟩ := head
    by_cases hk : k = key <;> grind

theorem lookup_map {γ : Type} (f : β → γ) (key : String) (members : List (String × β)) :
    (members.map fun m => (m.1, f m.2)).lookup key = (members.lookup key).map f := by
  induction members with
  | nil => rfl
  | cons head rest ih =>
    obtain ⟨k, v⟩ := head
    by_cases hk : k = key <;> grind

/-- Gives `key` a value, in its place or at the end. -/
def assign (key : String) (value : β) : List (String × β) → List (String × β)
  | [] => [(key, value)]
  | (k, v) :: rest => if k = key then (k, value) :: rest else (k, v) :: assign key value rest

theorem mem_assign {key : String} {value : β} {members : List (String × β)} {x : String × β}
    (h : x ∈ assign key value members) : x = (key, value) ∨ x ∈ members := by
  induction members with
  | nil => simpa [assign] using h
  | cons head rest ih =>
    obtain ⟨k, v⟩ := head
    simp only [assign] at h
    split at h <;> grind

theorem keys_assign (key : String) (value : β) (members : List (String × β)) :
    (assign key value members).map Prod.fst =
      if key ∈ members.map Prod.fst then members.map Prod.fst
      else members.map Prod.fst ++ [key] := by
  induction members with
  | nil => rfl
  | cons head rest ih =>
    obtain ⟨k, v⟩ := head
    simp only [assign]
    split <;> grind

theorem Distinct.assign {key : String} {value : β} {members : List (String × β)}
    (h : Distinct members) : Distinct (assign key value members) := by
  rw [Distinct, keys_assign]
  split
  · exact h
  · rename_i hkey
    exact List.concat_eq_append ▸ List.Nodup.concat hkey h

end MessageIntake
