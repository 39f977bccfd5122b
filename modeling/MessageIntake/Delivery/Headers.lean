/-!
# Headers

A map from text to text. The entries are kept in ascending order of
their keys, each key once. `get?_insert` is the law of a map: a look-up
finds what was set last.
-/

namespace MessageIntake

/-- Text by key. -/
structure Headers where
  entries : List (String × String)
  ascending : entries.Pairwise fun a b => a.1 < b.1
  deriving DecidableEq, Repr

namespace Headers

def empty : Headers := ⟨[], .nil⟩

instance : Inhabited Headers := ⟨empty⟩

/-- Sets a key in ascending entries. -/
def insertEntry (key value : String) : List (String × String) → List (String × String)
  | [] => [(key, value)]
  | (k, v) :: rest =>
    if key < k then (key, value) :: (k, v) :: rest
    else if key = k then (key, value) :: rest
    else (k, v) :: insertEntry key value rest

theorem mem_insertEntry {key value : String} {entries : List (String × String)}
    {e : String × String} (h : e ∈ insertEntry key value entries) :
    e = (key, value) ∨ e ∈ entries := by
  induction entries with
  | nil => simpa [insertEntry] using h
  | cons head rest ih => grind [insertEntry]

theorem ascending_insertEntry (key value : String) {entries : List (String × String)}
    (h : entries.Pairwise fun a b => a.1 < b.1) :
    (insertEntry key value entries).Pairwise fun a b => a.1 < b.1 := by
  induction entries with
  | nil => simp [insertEntry]
  | cons head rest ih =>
    obtain ⟨below, tail⟩ := List.pairwise_cons.1 h
    simp only [insertEntry]
    split
    · rename_i less
      refine List.pairwise_cons.2 ⟨fun e he => ?_, h⟩
      rcases List.mem_cons.1 he with rfl | he
      · exact less
      · exact String.lt_trans less (below e he)
    · split
      · rename_i same
        exact List.pairwise_cons.2 ⟨fun e he => same ▸ below e he, tail⟩
      · refine List.pairwise_cons.2 ⟨fun e he => ?_, ih tail⟩
        rcases mem_insertEntry he with rfl | he
        · grind
        · exact below e he

/-- Sets the text of a key. -/
def insert (headers : Headers) (key value : String) : Headers :=
  ⟨insertEntry key value headers.entries, ascending_insertEntry key value headers.ascending⟩

/-- The text of a key. -/
def get? (headers : Headers) (key : String) : Option String := headers.entries.lookup key

/-- The map of `entries`; of two with one key the later counts. -/
def ofList (entries : List (String × String)) : Headers :=
  entries.foldl (fun headers (key, value) => headers.insert key value) empty

@[simp] theorem get?_empty (key : String) : empty.get? key = none := rfl

theorem lookup_insertEntry (key value sought : String) {entries : List (String × String)}
    (h : entries.Pairwise fun a b => a.1 < b.1) :
    (insertEntry key value entries).lookup sought =
      if sought = key then some value else entries.lookup sought := by
  induction entries with
  | nil => grind [insertEntry]
  | cons head rest ih =>
    have := ih (List.pairwise_cons.1 h).2
    simp only [insertEntry]
    grind

/-- **A look-up finds what was set last.** -/
theorem get?_insert (headers : Headers) (key value sought : String) :
    (headers.insert key value).get? sought =
      if sought = key then some value else headers.get? sought :=
  lookup_insertEntry key value sought headers.ascending

end Headers

end MessageIntake
