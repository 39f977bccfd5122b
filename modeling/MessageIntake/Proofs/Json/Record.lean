import MessageIntake.Json.Record
import MessageIntake.Proofs.Json.Members

/-!
# What restates a record

A record is written as an object that has a member for each field. Many
values say the same: members may stand in another order, others that are
no fields may stand between them, those that say nothing may be left
out, and an array may give the values in the order of the fields.
`Restates` is what they have in common: of each field the value that is
written, or nothing where it may lack. `Restates.of_members` and
`Restates.of_take` are the two ways to come by it.
-/

namespace MessageIntake.Json

/-- The same value, with the members of an object in whatever order. -/
inductive Reorders : Json → Json → Prop
  | same (j : Json) : Reorders j j
  | members {ms ms' : List (String × Json)} : ms.Perm ms' → Reorders (.obj ms) (.obj ms')

/-- **What is given for fields restates the members of a record**: it has
the value of each member, or nothing where the member may lack. -/
def Restates (MayLack : String × Json → Prop) (form : List (String × Json))
    (given : String → Option Json) : Prop :=
  ∀ m ∈ form, (∃ j, given m.1 = some j ∧ j.Reorders m.2) ∨ given m.1 = none ∧ MayLack m

variable {MayLack : String × Json → Prop} {form members kept : List (String × Json)}

/-- **An object restates a record** whose members it has, in whatever order
and beside whatever others, but for some that may lack. -/
theorem Restates.of_members (hform : Distinct form) (hkept : kept.Sublist form)
    (hlacks : ∀ m ∈ form, m ∈ kept ∨ MayLack m)
    (hmembers : (members.filter fun m => m.1 ∈ form.map Prod.fst).Perm kept) :
    Restates MayLack form fun name => members.lookup name := by
  have hdistinct : Distinct (members.filter fun m => m.1 ∈ form.map Prod.fst) :=
    (hmembers.map Prod.fst).nodup_iff.mpr (hform.sublist (hkept.map Prod.fst))
  intro m hm
  have hname : m.1 ∈ form.map Prod.fst := List.mem_map.mpr ⟨m, hm, rfl⟩
  have hlookup := lookup_filter (fun name => name ∈ form.map Prod.fst)
    (decide_eq_true hname) members
  dsimp only
  rw [← hlookup]
  by_cases hin : m ∈ kept
  · exact .inl ⟨m.2, hdistinct.lookup (hmembers.mem_iff.mpr hin), .same _⟩
  · refine .inr ⟨?_, (hlacks m hm).resolve_left hin⟩
    refine Option.eq_none_iff_forall_ne_some.mpr fun v hv => hin ?_
    -- what is found for the field is kept, so it is the member itself
    have hfound : (m.1, v) ∈ kept := hmembers.mem_iff.mp (mem_of_lookup hv)
    have heq : v = m.2 := hform.unique (hkept.subset hfound) hm
    rwa [heq] at hfound

/-- **An array restates a record** whose values it has, in the order of the
fields, but for some at the end that may lack. -/
theorem Restates.of_take {names : List String} {values : List Json} {n : Nat}
    (hnames : names.Nodup) (hlacks : ∀ m ∈ (names.zip values).drop n, MayLack m) :
    Restates MayLack (names.zip values) fun name => (values.take n)[names.idxOf name]? := by
  intro m hm
  obtain ⟨k, hk⟩ := List.getElem?_of_mem hm
  obtain ⟨hname, hvalue⟩ := List.getElem?_zip_eq_some.mp hk
  obtain ⟨hlt, hname⟩ := List.getElem?_eq_some_iff.mp hname
  have hindex : names.idxOf m.1 = k := hname ▸ hnames.idxOf_getElem k hlt
  dsimp only
  rw [hindex]
  by_cases hn : k < n
  · exact .inl ⟨m.2, by rw [List.getElem?_take_of_lt hn, hvalue], .same _⟩
  · refine .inr ⟨List.getElem?_take_eq_none (Nat.le_of_not_lt hn), hlacks m ?_⟩
    refine List.mem_of_getElem? (i := k - n) ?_
    rw [List.getElem?_drop, Nat.add_sub_cancel' (Nat.le_of_not_lt hn), hk]

/-! ## Reading a field -/

/-- A value that says nothing: null, or an object without members. -/
def Blank (j : Json) : Prop := j = .null ∨ j = .obj []

/-- A value that is no object has no members to reorder. -/
theorem Reorders.eq {j value : Json} (h : j.Reorders value) (hvalue : ∀ ms, value ≠ .obj ms) :
    j = value := by
  cases h with
  | same => rfl
  | members => exact absurd rfl (hvalue _)

variable {α : Type} {given : String → Option Json} {name : String} {value : Json}

/-- A field that may be null is read back, and where it lacks it was null. -/
theorem Restates.nullable {read : Json → Option α} {field : Option α}
    (h : Restates MayLack form given) (hmem : (name, value) ∈ form)
    (hvalue : ∀ ms, value ≠ .obj ms) (hlack : MayLack (name, value) → value = .null)
    (hread : Json.nullable read (some value) = some field) :
    Json.nullable read (given name) = some field := by
  rcases h _ hmem with ⟨j, hgiven, hj⟩ | ⟨hgiven, hmay⟩
  · rw [hgiven, hj.eq hvalue]
    exact hread
  · rw [hlack hmay] at hread
    rw [hgiven]
    exact hread

/-- A field that has a default is read back, and where it lacks it was the
default. -/
theorem Restates.orElse {read : Json → Option α} {default field : α}
    (h : Restates MayLack form given) (hmem : (name, value) ∈ form)
    (hvalue : ∀ ms, value ≠ .obj ms) (hlack : MayLack (name, value) → field = default)
    (hread : read value = some field) :
    Json.orElse default read (given name) = some field := by
  rcases h _ hmem with ⟨j, hgiven, hj⟩ | ⟨hgiven, hmay⟩
  · rw [hgiven, hj.eq hvalue]
    exact hread
  · rw [hgiven, hlack hmay]
    rfl

theorem ofText?_ne_obj (text : Option String) (ms : List (String × Json)) :
    Json.ofText? text ≠ .obj ms := by
  cases text <;> exact Json.noConfusion

theorem nullable_ofText? (text : Option String) :
    Json.nullable text? (some (.ofText? text)) = some text := by
  cases text <;> rfl

end MessageIntake.Json
