import MessageIntake.Number.Binary64
import MessageIntake.Toml.Moment

/-!
# TOML tables

A table has members by key. How a table came to be decides what may
still be added to it: a header may open a table that only its subtables
have made so far, dotted keys may extend a table that no header opened,
and an array or a table written as a value is complete. A table that a
dotted key has led through can no longer be opened by a header.

`define` sets a key, `openTable` and `openElement` are the two headers,
and `within` works on the table that the last header opened. All of them
fail rather than define anything twice.
-/

namespace MessageIntake

/-- How a table came to be: by its own header, because a header names a
subtable of it, by dotted keys, or as a value in braces. -/
inductive Toml.Origin where
  | header
  | subtable
  | dotted
  | braces
  deriving DecidableEq, Repr

inductive Toml where
  | str (value : String)
  | int (value : Int64)
  | float (value : Binary64)
  | bool (value : Bool)
  | moment (value : Toml.Moment)
  | arr (items : List Toml)
  /-- The tables under one double-bracket header, the last first, each by
  its members. -/
  | elements (last : List (String × Toml)) (before : List (List (String × Toml)))
  | table (origin : Toml.Origin) (members : List (String × Toml))
  deriving Repr, Inhabited

namespace Toml

/-- The members of a table. -/
abbrev Members := List (String × Toml)

/-- Gives `key` a value, in its place or at the end. -/
def put (key : String) (value : Toml) : Members → Members
  | [] => [(key, value)]
  | (k, v) :: rest => if k = key then (k, value) :: rest else (k, v) :: put key value rest

/-- Defines the value of a dotted key. The parts before the last name
tables, which are made where they are missing; an array of tables is
entered at its last. The table that gets the key must not be one that a
header opened. -/
def define : (path : List String) → Toml → Members → Option Members
  | [], _, _ => none
  | [key], value, members =>
    match members.lookup key with
    | none => some (put key value members)
    | some _ => none
  | key :: path, value, members =>
    match members.lookup key with
    | none => (define path value []).map fun inner => put key (.table .dotted inner) members
    | some (.table origin inner) =>
      if origin = .dotted || origin = .subtable then
        (define path value inner).map fun inner => put key (.table .dotted inner) members
      else none
    -- The tables of an array are opened by their headers.
    | some (.elements last before) =>
      if path.length = 1 then none
      else (define path value last).map fun last => put key (.elements last before) members
    | some _ => none

/-- Changes the table that a header's path leads to; tables on the way
are made where they are missing, and an array of tables is entered at
its last. -/
def within (change : Members → Option Members) : (path : List String) → Members → Option Members
  | [], members => change members
  | key :: path, members =>
    match members.lookup key with
    | none => (within change path []).map fun inner => put key (.table .subtable inner) members
    | some (.table .braces _) => none
    | some (.table origin inner) =>
      (within change path inner).map fun inner => put key (.table origin inner) members
    | some (.elements last before) =>
      (within change path last).map fun last => put key (.elements last before) members
    | some _ => none

/-- Opens the table `key` by its own header. -/
def openKey (key : String) (members : Members) : Option Members :=
  match members.lookup key with
  | none => some (put key (.table .header []) members)
  | some (.table .subtable inner) => some (put key (.table .header inner) members)
  | some _ => none

/-- Opens a further table of the array `key`. -/
def openElementKey (key : String) (members : Members) : Option Members :=
  match members.lookup key with
  | none => some (put key (.elements [] []) members)
  | some (.elements last before) => some (put key (.elements [] (last :: before)) members)
  | some _ => none

/-- Opens what a header names. -/
def openWith (openLast : String → Members → Option Members) (path : List String)
    (members : Members) : Option Members :=
  match path.getLast? with
  | none => none
  | some key => within (openLast key) path.dropLast members

/-- The header of a table. -/
def openTable : (path : List String) → Members → Option Members := openWith openKey

/-- The header of a further table of an array. -/
def openElement : (path : List String) → Members → Option Members := openWith openElementKey

theorem lookup_put (key sought : String) (value : Toml) (members : Members) :
    (put key value members).lookup sought =
      if sought = key then some value else members.lookup sought := by
  induction members with
  | nil => grind [put]
  | cons head rest ih =>
    obtain ⟨k, v⟩ := head
    simp only [put]
    split <;> grind

/-- A key is defined at most once. -/
theorem define_eq_none_of_lookup {key : String} {old : Toml} {members : Members} (value : Toml)
    (h : members.lookup key = some old) : define [key] value members = none := by
  simp [define, h]

/-- **A dotted key closes the tables on its way to headers.** -/
theorem openKey_eq_none_of_define {key next : String} {path : List String} {value : Toml}
    {members after : Members} (h : define (key :: next :: path) value members = some after) :
    openKey key after = none := by
  simp only [define] at h
  split at h
  · obtain ⟨inner, -, rfl⟩ := Option.map_eq_some_iff.1 h
    simp [openKey, lookup_put]
  · split at h
    · obtain ⟨inner, -, rfl⟩ := Option.map_eq_some_iff.1 h
      simp [openKey, lookup_put]
    · simp at h
  · split at h
    · simp at h
    · obtain ⟨last, -, rfl⟩ := Option.map_eq_some_iff.1 h
      simp [openKey, lookup_put]
  · simp at h

end Toml

end MessageIntake
