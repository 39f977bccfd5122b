import MessageIntake.Proofs.Config.Keys

/-!
# Loading field by field

A configuration is loaded in three steps. What the file and the
environment give is merged, setting by setting: a variable takes the
place of what the file gives (`FieldByField.overrides`). Each of the four
settings then takes what is given for it, or its default; one that
cannot is a parse failure, whatever the tag is. Only a configuration that
could be read is looked at once more for its tag.

`load_field_by_field` has all of it for every file that is read and
every environment in which no two variables have one name.
-/

namespace MessageIntake.Config

/-! ## What is given -/

/-- The table of the file at `path`. -/
def table? (files : Files) (path : String) : Option (List (String × Value)) :=
  (files.find? path).bind fun found => readFile? found.1 found.2

/-- The variable of a setting: it has the setting's name after the prefix,
whatever the case. -/
def Environment.text? (environment : Environment) (setting : String) : Option String :=
  (environment.find? fun v => lowerName v.1 = "rabbitmq_consumer_" ++ setting).map Prod.snd

/-- What is given for a setting: by its variable, or else by the file. -/
def given (file : List (String × Value)) (environment : Environment) (setting : String) :
    Option Value :=
  ((environment.text? setting).map Value.ofVariable).or (file.lookup setting)

/-- No key but the setting's own name leads to the setting. -/
def Alone (setting : String) (entries : List (String × Value)) : Prop :=
  ∀ entry ∈ entries, (KeyPath.ofKey entry.1).setting = setting → entry.1 = setting

/-- A setting has taken what is given for it, or its default. -/
def Takes {α : Type} (given : Option Value) (convert : Value → Option α) (default taken : α) :
    Prop :=
  match given with
  | none => taken = default
  | some value => convert value = some taken

/-- The configuration has exactly what is given for its settings. -/
structure Reads (given : String → Option Value) (c : Config) : Prop where
  ackMode : Takes (given "ack_mode") Value.toAckMode? .manual c.ackMode
  receiveTimeoutMillis :
    Takes (given "receive_timeout_millis") Value.toInt64? 60000 c.receiveTimeoutMillis
  requeueOnFailure : Takes (given "requeue_on_failure") Value.toBool? true c.requeueOnFailure
  consumerTag : Takes (given "consumer_tag") Value.toOptionalText? none c.consumerTag

/-- What is given cannot be converted. -/
def Refuses {α : Type} (given : Option Value) (convert : Value → Option α) : Prop :=
  ∃ value ∈ given, convert value = none

/-- A tag may be used if it has 1 to 255 bytes. -/
def Usable (tag : String) : Prop := 1 ≤ tag.utf8ByteSize ∧ tag.utf8ByteSize ≤ 255

/-! ## Reading the settings -/

section Reading

variable {given other : String → Option Value} {c : Config}

theorem takes_iff {α : Type} {given : Option Value} {convert : Value → Option α}
    {default taken : α} :
    Takes given convert default taken ↔ given.elim (some default) convert = some taken := by
  cases given with
  | none => simp [Takes, eq_comm]
  | some value => rfl

theorem refuses_iff {α : Type} {given : Option Value} {convert : Value → Option α} (default : α) :
    Refuses given convert ↔ given.elim (some default) convert = none := by
  cases given with
  | none => simp [Refuses]
  | some value => simp [Refuses]

theorem ofValues?_eq (given : String → Option Value) :
    ofValues? given =
      (((given "ack_mode").elim (some .manual) Value.toAckMode?).bind fun ackMode =>
      ((given "receive_timeout_millis").elim (some 60000) Value.toInt64?).bind fun millis =>
      ((given "requeue_on_failure").elim (some true) Value.toBool?).bind fun requeue =>
      ((given "consumer_tag").elim (some none) Value.toOptionalText?).bind fun tag =>
      some ⟨ackMode, millis, requeue, tag⟩) := by
  unfold ofValues?
  dsimp only
  cases given "ack_mode" <;> cases given "receive_timeout_millis" <;>
    cases given "requeue_on_failure" <;> cases given "consumer_tag" <;> rfl

theorem ofValues?_eq_some_iff : ofValues? given = some c ↔ Reads given c := by
  rw [ofValues?_eq]
  constructor
  · intro h
    obtain ⟨ackMode, hmode, h⟩ := Option.bind_eq_some_iff.mp h
    obtain ⟨millis, hmillis, h⟩ := Option.bind_eq_some_iff.mp h
    obtain ⟨requeue, hrequeue, h⟩ := Option.bind_eq_some_iff.mp h
    obtain ⟨tag, htag, h⟩ := Option.bind_eq_some_iff.mp h
    cases h
    exact ⟨takes_iff.mpr hmode, takes_iff.mpr hmillis, takes_iff.mpr hrequeue, takes_iff.mpr htag⟩
  · rintro ⟨hmode, hmillis, hrequeue, htag⟩
    rw [takes_iff.mp hmode, takes_iff.mp hmillis, takes_iff.mp hrequeue, takes_iff.mp htag]
    rfl

/-- Nothing is read if one setting refuses what is given for it. -/
theorem ofValues?_eq_none_iff :
    ofValues? given = none ↔
      Refuses (given "ack_mode") Value.toAckMode? ∨
      Refuses (given "receive_timeout_millis") Value.toInt64? ∨
      Refuses (given "requeue_on_failure") Value.toBool? ∨
      Refuses (given "consumer_tag") Value.toOptionalText? := by
  rw [ofValues?_eq, refuses_iff AckMode.manual, refuses_iff (60000 : Int64), refuses_iff true,
    refuses_iff (none : Option String)]
  cases (given "ack_mode").elim (some AckMode.manual) Value.toAckMode? <;>
    cases (given "receive_timeout_millis").elim (some 60000) Value.toInt64? <;>
    cases (given "requeue_on_failure").elim (some true) Value.toBool? <;>
    cases (given "consumer_tag").elim (some none) Value.toOptionalText? <;> simp

/-- A configuration is refused for its tag alone, and the error says for
which. -/
theorem validate_cases (c : Config) :
    (c.validate = .ok () ∧ ∀ tag ∈ c.consumerTag, Usable tag) ∨
      ∃ tag reason, c.consumerTag = some tag ∧ ¬ Usable tag ∧
        c.validate = .error (.configInvalidValue "consumer_tag" tag reason) := by
  unfold validate
  cases c.consumerTag with
  | none => exact .inl ⟨rfl, by simp⟩
  | some tag =>
    dsimp only [validateConsumerTag]
    split
    · exact .inr ⟨tag, _, rfl, by unfold Usable; omega, rfl⟩
    · split
      · rename_i hlong
        exact .inr ⟨tag, _, rfl, by unfold maxConsumerTag at hlong; unfold Usable; omega, rfl⟩
      · rename_i hempty hlong
        refine .inl ⟨rfl, fun t ht => ?_⟩
        cases ht
        unfold maxConsumerTag at hlong
        unfold Usable
        omega

end Reading

/-! ## What loading comes to -/

/-- **What a load comes to** if `given` is given for the settings. -/
structure Outcome (given : String → Option Value) (result : Result Config) : Prop where
  ok_iff : ∀ c, result = .ok c ↔ Reads given c ∧ ∀ tag ∈ c.consumerTag, Usable tag
  /-- One setting that refuses what is given for it is a parse failure. -/
  parseFailed_iff : (∃ reason, result = .error (.configParseFailed "consumer" reason)) ↔
    Refuses (given "ack_mode") Value.toAckMode? ∨
    Refuses (given "receive_timeout_millis") Value.toInt64? ∨
    Refuses (given "requeue_on_failure") Value.toBool? ∨
    Refuses (given "consumer_tag") Value.toOptionalText?
  /-- The tag is looked at once everything is converted. -/
  invalidValue_iff : ∀ tag,
    (∃ reason, result = .error (.configInvalidValue "consumer_tag" tag reason)) ↔
      ∃ c, Reads given c ∧ c.consumerTag = some tag ∧ ¬ Usable tag

section Load

variable {files : Files} {environment : Environment} {path : String}
  {file : List (String × Value)}

theorem Reads.unique {given : String → Option Value} {c c' : Config} (h : Reads given c)
    (h' : Reads given c') : c = c' :=
  Option.some.inj ((ofValues?_eq_some_iff.mpr h).symm.trans (ofValues?_eq_some_iff.mpr h'))

namespace Outcome

variable {given : String → Option Value} {c : Config} {tag reason : String}

theorem of_refused (h : ofValues? given = none) :
    Outcome given (.error (.configParseFailed "consumer" reason)) := by
  have hnone : ∀ c, ¬ Reads given c := fun c hc => by
    rw [ofValues?_eq_some_iff.mpr hc] at h
    cases h
  refine ⟨fun c => ⟨fun hok => ?_, fun hc => absurd hc.1 (hnone c)⟩,
    ⟨fun _ => ofValues?_eq_none_iff.mp h, fun _ => ⟨reason, rfl⟩⟩,
    fun tag => ⟨fun hinvalid => ?_, fun hc => ?_⟩⟩
  · cases hok
  · obtain ⟨_, hinvalid⟩ := hinvalid
    cases hinvalid
  · obtain ⟨c, hc, -⟩ := hc
    exact absurd hc (hnone c)

/-- What is read refuses nothing. -/
theorem not_refused (h : Reads given c) : ¬ (Refuses (given "ack_mode") Value.toAckMode? ∨
    Refuses (given "receive_timeout_millis") Value.toInt64? ∨
    Refuses (given "requeue_on_failure") Value.toBool? ∨
    Refuses (given "consumer_tag") Value.toOptionalText?) := by
  intro hrefuses
  have hnone := ofValues?_eq_none_iff.mpr hrefuses
  rw [ofValues?_eq_some_iff.mpr h] at hnone
  cases hnone

theorem of_usable (h : Reads given c) (husable : ∀ tag ∈ c.consumerTag, Usable tag) :
    Outcome given (.ok c) := by
  refine ⟨fun c' => ⟨fun hok => ?_, fun hc' => ?_⟩,
    ⟨fun hfailed => ?_, fun hrefuses => absurd hrefuses (not_refused h)⟩,
    fun tag => ⟨fun hinvalid => ?_, fun hc' => ?_⟩⟩
  · cases hok
    exact ⟨h, husable⟩
  · rw [h.unique hc'.1]
  · obtain ⟨_, hfailed⟩ := hfailed
    cases hfailed
  · obtain ⟨_, hinvalid⟩ := hinvalid
    cases hinvalid
  · obtain ⟨c', hc', htag, hunusable⟩ := hc'
    obtain rfl := h.unique hc'
    exact absurd (husable tag htag) hunusable

theorem of_unusable (h : Reads given c) (htag : c.consumerTag = some tag)
    (hunusable : ¬ Usable tag) :
    Outcome given (.error (.configInvalidValue "consumer_tag" tag reason)) := by
  refine ⟨fun c' => ⟨fun hok => ?_, fun hc' => ?_⟩,
    ⟨fun hfailed => ?_, fun hrefuses => absurd hrefuses (not_refused h)⟩,
    fun tag' => ⟨fun hinvalid => ?_, fun hc' => ?_⟩⟩
  · cases hok
  · obtain rfl := h.unique hc'.1
    exact absurd (hc'.2 tag htag) hunusable
  · obtain ⟨_, hfailed⟩ := hfailed
    cases hfailed
  · obtain ⟨_, hinvalid⟩ := hinvalid
    cases hinvalid
    exact ⟨c, h, htag, hunusable⟩
  · obtain ⟨c', hc', htag', -⟩ := hc'
    obtain rfl := h.unique hc'
    obtain rfl := Option.some.inj (htag.symm.trans htag')
    exact ⟨reason, rfl⟩

end Outcome

/-- A file that is missing or malformed is a parse failure. -/
theorem load_of_table?_eq_none (h : table? files path = none) :
    ∃ reason, load files environment path = .error (.configParseFailed "consumer" reason) := by
  unfold load read
  cases hfind : files.find? path with
  | none => exact ⟨_, rfl⟩
  | some found =>
    rw [table?, hfind] at h
    have hread : readFile? found.1 found.2 = none := h
    dsimp only
    rw [hread]
    exact ⟨_, rfl⟩

theorem read_of_table? (h : table? files path = some file) :
    read files environment path =
      ((ofValues? (effective file environment).get?).elim
        (.error (.configParseFailed "consumer" "a value cannot be converted")) .ok) := by
  obtain ⟨found, hfind, hread⟩ := Option.bind_eq_some_iff.mp h
  unfold read
  rw [hfind]
  dsimp only
  rw [hread]
  dsimp only
  cases ofValues? (effective file environment).get? <;> rfl

/-- **A load converts what is given, and then looks at the tag.** -/
theorem outcome_load {given : String → Option Value} (h : table? files path = some file)
    (hgiven : ofValues? (effective file environment).get? = ofValues? given) :
    Outcome given (load files environment path) := by
  unfold load
  rw [read_of_table? h, hgiven]
  cases hvalues : ofValues? given with
  | none => exact .of_refused hvalues
  | some c =>
    have hreads := ofValues?_eq_some_iff.mp hvalues
    rcases validate_cases c with ⟨hvalid, husable⟩ | ⟨tag, reason, htag, hunusable, hinvalid⟩
    · simp only [Option.elim, hvalid]
      exact .of_usable hreads husable
    · simp only [Option.elim, hinvalid]
      exact .of_unusable hreads htag hunusable

end Load

/-! ## Merging -/

/-- What entries make of a value that was given before: those that lead to
the setting are placed in it, one after the other. -/
def placed (setting : String) (entries : List (String × Value)) (old : Option Value) :
    Option Value :=
  (entries.filter fun entry => (KeyPath.ofKey entry.1).setting = setting).foldl
    (fun old entry => some (entry.2.place (KeyPath.ofKey entry.1).steps old)) old

section Merging

variable {setting key : String} {entries file : List (String × Value)} {old : Option Value}
  {environment : Environment}

theorem get?_setAll (s : Settings) (setting : String) (entries : List (String × Value)) :
    (s.setAll entries).get? setting = placed setting entries (s.get? setting) := by
  induction entries generalizing s with
  | nil => rfl
  | cons entry rest ih =>
    have hstep : s.setAll (entry :: rest) = (s.set entry.1 entry.2).setAll rest := rfl
    rw [hstep, ih, Settings.get?_set]
    by_cases hleads : (KeyPath.ofKey entry.1).setting = setting
    · simp [placed, hleads]
    · simp [placed, hleads, Ne.symm hleads]

/-- The environment is placed after the file. -/
theorem get?_effective (file : List (String × Value)) (environment : Environment)
    (setting : String) : (effective file environment).get? setting =
      placed setting environment.given (placed setting file none) := by
  rw [effective, get?_setAll, get?_setAll]
  rfl

/-- The names of the settings lead to the settings themselves. -/
theorem ofKey_fieldName (h : setting ∈ fieldNames) : KeyPath.ofKey setting = ⟨setting, []⟩ := by
  have hall : ∀ name ∈ fieldNames, KeyPath.ofKey name = ⟨name, []⟩ := by decide +kernel
  exact hall setting h

theorem placed_cons_of_leads {k : String} {v : Value}
    (hleads : (KeyPath.ofKey k).setting = setting) :
    placed setting ((k, v) :: entries) old =
      placed setting entries (some (v.place (KeyPath.ofKey k).steps old)) := by
  simp [placed, hleads]

theorem placed_cons_of_not_leads {k : String} {v : Value}
    (hleads : (KeyPath.ofKey k).setting ≠ setting) :
    placed setting ((k, v) :: entries) old = placed setting entries old := by
  simp [placed, hleads]

theorem lookup_eq_none (h : setting ∉ entries.map Prod.fst) : entries.lookup setting = none := by
  cases hlookup : entries.lookup setting with
  | none => rfl
  | some value => exact absurd (List.mem_map.mpr ⟨_, mem_of_lookup hlookup, rfl⟩) h

/-- Of distinct keys only the setting's own counts, if no other leads to
it. -/
theorem placed_of_alone (hsetting : setting ∈ fieldNames) (hdistinct : Distinct entries)
    (halone : Alone setting entries) :
    placed setting entries old = ((entries.lookup setting).map (·.place [] old)).or old := by
  induction entries generalizing old with
  | nil => rfl
  | cons entry rest ih =>
    obtain ⟨k, v⟩ := entry
    obtain ⟨hk, hrest⟩ := List.nodup_cons.mp hdistinct
    have ih' : ∀ old, placed setting rest old =
        ((rest.lookup setting).map (·.place [] old)).or old :=
      fun _ => ih hrest fun e he => halone e (List.mem_cons_of_mem _ he)
    by_cases hname : setting = k
    · obtain rfl := hname
      have hpath := ofKey_fieldName hsetting
      rw [placed_cons_of_leads (by rw [hpath]), ih', lookup_eq_none hk, List.lookup_cons_self,
        hpath]
      rfl
    · have hleads : (KeyPath.ofKey k).setting ≠ setting := fun hleads =>
        hname (halone (k, v) List.mem_cons_self hleads).symm
      rw [placed_cons_of_not_leads hleads, ih', List.lookup_cons, beq_false_of_ne hname]

/-! ### The environment -/

/-- A variable's key is what follows the prefix in its name. -/
theorem keyOf?_eq_some_iff {name : String} :
    keyOf? name = some key ↔ lowerName name = "rabbitmq_consumer_" ++ key := by
  have hstart : (variablePrefix ++ "_").toLower = "rabbitmq_consumer_" := by decide +kernel
  unfold keyOf?
  rw [hstart, ← String.toList_inj, String.toList_append]
  dsimp only
  split
  · rename_i hprefix
    obtain ⟨rest, hrest⟩ := List.isPrefixOf_iff_prefix.mp hprefix
    rw [← hrest, List.drop_left, Option.some_inj, List.append_cancel_left_eq, ← String.toList_inj,
      String.toList_ofList]
  · rename_i hprefix
    constructor
    · rintro ⟨⟩
    · intro h
      exact absurd (List.isPrefixOf_iff_prefix.mpr ⟨key.toList, h.symm⟩) hprefix

theorem given_cons (v : String × String) (rest : Environment) :
    Environment.given (v :: rest) = ((keyOf? v.1).map fun key => (key, Value.ofVariable v.2)).toList
      ++ Environment.given rest := by
  obtain ⟨name, s⟩ := v
  cases hkey : keyOf? name <;> simp [Environment.given, hkey]

/-- Two variables with distinct names have distinct keys. -/
theorem distinct_given (h : (environment.map fun v => lowerName v.1).Nodup) :
    Distinct environment.given := by
  induction environment with
  | nil => exact .nil
  | cons v rest ih =>
    obtain ⟨hv, hrest⟩ := List.nodup_cons.mp h
    rw [given_cons]
    cases hkey : keyOf? v.1 with
    | none => exact ih hrest
    | some key =>
      refine List.nodup_cons.mpr ⟨fun hmem => hv ?_, ih hrest⟩
      -- another variable with this key has this name
      obtain ⟨entry, hentry, rfl⟩ := List.mem_map.mp hmem
      obtain ⟨v', hv', hgiven⟩ := List.mem_filterMap.mp hentry
      obtain ⟨key', hkey', rfl⟩ := Option.map_eq_some_iff.mp hgiven
      have hname := (keyOf?_eq_some_iff.mp hkey').trans (keyOf?_eq_some_iff.mp hkey).symm
      exact List.mem_map.mpr ⟨v', hv', hname⟩

theorem lookup_given (environment : Environment) (setting : String) :
    environment.given.lookup setting = (environment.text? setting).map Value.ofVariable := by
  induction environment with
  | nil => rfl
  | cons v rest ih =>
    rw [given_cons, Environment.text?, List.find?_cons]
    by_cases hname : lowerName v.1 = "rabbitmq_consumer_" ++ setting
    · rw [keyOf?_eq_some_iff.mpr hname]
      simp [hname]
    · have hkey : ∀ key, keyOf? v.1 = some key → key ≠ setting := by
        rintro key hkey rfl
        exact hname (keyOf?_eq_some_iff.mp hkey)
      rw [Environment.text?] at ih
      cases hkey' : keyOf? v.1 with
      | none => simpa [hname] using ih
      | some key => simpa [hname, List.lookup_cons, beq_false_of_ne (hkey key hkey').symm] using ih

/-- A variable gives no table. -/
theorem Value.place_ofVariable (s : String) (old : Option Value) :
    (Value.ofVariable s).place [] old = Value.ofVariable s := by
  unfold ofVariable
  split
  · rfl
  · rfl
  · split
    · rfl
    · split <;> rfl

/-! ### The file -/

/-- Every setting takes the two values alike. -/
structure Value.Alike (v w : Value) : Prop where
  toAckMode? : v.toAckMode? = w.toAckMode?
  toInt64? : v.toInt64? = w.toInt64?
  toBool? : v.toBool? = w.toBool?
  toOptionalText? : v.toOptionalText? = w.toOptionalText?

theorem Value.Alike.refl (v : Value) : v.Alike v := ⟨rfl, rfl, rfl, rfl⟩

theorem foldl_insert {keys had : List String} (h : (keys.reverse ++ had).Nodup) :
    keys.foldl (fun keys key => keys.insert key) had = keys.reverse ++ had := by
  induction keys generalizing had with
  | nil => rfl
  | cons key rest ih =>
    rw [List.reverse_cons, List.append_assoc] at h ⊢
    have hkey : key ∉ had := (List.nodup_cons.mp h.of_append_right).1
    rw [List.foldl_cons, List.insert_of_not_mem hkey]
    exact ih h

/-- The order of a table's keys does not matter to a setting. -/
theorem Value.alike_reverse (keys : List String) : (table keys.reverse).Alike (table keys) := by
  refine ⟨?_, rfl, rfl, rfl⟩
  rcases keys with _ | ⟨first, _ | ⟨second, rest⟩⟩
  · rfl
  · rfl
  · have hlength : (first :: second :: rest).reverse.length = rest.length + 2 := by simp
    rcases hreverse : (first :: second :: rest).reverse with _ | ⟨a, _ | ⟨b, l⟩⟩
    · simp at hreverse
    · rw [hreverse] at hlength
      simp at hlength
    · rfl

/-- A value is what it was where nothing was given before. -/
theorem Value.alike_place {v : Value} (h : v.Sound) : (v.place [] none).Alike v := by
  cases v with
  | table keys =>
    have hfold : (table keys).place [] none = table keys.reverse := by
      have hkeys : (keys.reverse ++ []).Nodup := by simpa [Sound, Value.keys] using h
      rw [place, Option.map_none, Option.getD_none, foldl_insert hkeys, List.append_nil]
    rw [hfold]
    exact alike_reverse keys
  | nothing | truth _ | whole _ | real _ | text _ | list => exact .refl _

/-- **A variable takes the place of what the file gives**, where no other
key leads to the setting. -/
theorem effective_of_alone (hsetting : setting ∈ fieldNames) (hfile : Distinct file)
    (hsound : ∀ entry ∈ file, entry.2.Sound)
    (hdistinct : (environment.map fun v => lowerName v.1).Nodup)
    (halone : Alone setting (file ++ environment.given)) :
    Option.Rel Value.Alike ((effective file environment).get? setting)
      (given file environment setting) := by
  rw [get?_effective, placed_of_alone hsetting (distinct_given hdistinct)
      fun e he => halone e (List.mem_append_right _ he),
    placed_of_alone hsetting hfile fun e he => halone e (List.mem_append_left _ he),
    lookup_given, Config.given]
  cases environment.text? setting with
  | some s =>
    simp only [Option.map_some, Option.some_or, Value.place_ofVariable]
    exact .some (.refl _)
  | none =>
    cases hlookup : file.lookup setting with
    | none => exact .none
    | some v => exact .some (Value.alike_place (hsound _ (mem_of_lookup hlookup)))

/-- Settings that are given alike values are read alike. -/
theorem ofValues?_congr {given other : String → Option Value}
    (h : ∀ setting ∈ fieldNames, Option.Rel Value.Alike (given setting) (other setting)) :
    ofValues? given = ofValues? other := by
  have helim : ∀ {α : Type} {v w : Option Value} {convert : Value → Option α} {default : α},
      Option.Rel Value.Alike v w → (∀ v w : Value, v.Alike w → convert v = convert w) →
      v.elim (some default) convert = w.elim (some default) convert := by
    intro α v w convert default hrel hconvert
    cases hrel with
    | some halike => exact hconvert _ _ halike
    | none => rfl
  rw [ofValues?_eq, ofValues?_eq,
    helim (h "ack_mode" (by decide)) fun _ _ halike => halike.toAckMode?,
    helim (h "receive_timeout_millis" (by decide)) fun _ _ halike => halike.toInt64?,
    helim (h "requeue_on_failure" (by decide)) fun _ _ halike => halike.toBool?,
    helim (h "consumer_tag" (by decide)) fun _ _ halike => halike.toOptionalText?]

end Merging

/-! ## Field by field -/

/-- **What it means that a configuration is loaded field by field** from
what a file and the environment give. -/
structure FieldByField (file : List (String × Value)) (environment : Environment)
    (result : Result Config) : Prop where
  /-- All that leads to a setting is placed in it, the environment's after the
  file's. -/
  merges : ∀ setting, (effective file environment).get? setting =
    placed setting environment.given (placed setting file none)
  outcome : Outcome (effective file environment).get? result
  /-- If no path leads into a setting, its variable takes the place of what
  the file gives. -/
  overrides : ∀ setting ∈ fieldNames, Alone setting (file ++ environment.given) →
    Option.Rel Value.Alike ((effective file environment).get? setting)
      (given file environment setting)
  /-- If no path leads into any, the outcome is that of the variables, the
  file where there are none, and the defaults where neither gives
  anything. -/
  fields : (∀ setting ∈ fieldNames, Alone setting (file ++ environment.given)) →
    Outcome (given file environment) result

/-- **A configuration is loaded field by field**, from every file that is
read and every environment whose variables have distinct names. -/
theorem load_field_by_field {files : Files} {environment : Environment} {path : String}
    {file : List (String × Value)} (hfile : table? files path = some file)
    (hdistinct : (environment.map fun v => lowerName v.1).Nodup) :
    FieldByField file environment (load files environment path) := by
  obtain ⟨found, -, hread⟩ := Option.bind_eq_some_iff.mp hfile
  obtain ⟨htable, hsound⟩ := readFile?_distinct hread
  have hoverrides := fun setting (hsetting : setting ∈ fieldNames) halone =>
    effective_of_alone hsetting htable hsound hdistinct halone
  refine ⟨get?_effective file environment, outcome_load hfile rfl, hoverrides, fun halone => ?_⟩
  exact outcome_load hfile (ofValues?_congr fun setting hsetting =>
    hoverrides setting hsetting (halone setting hsetting))

/-- A file that gives three of the settings. -/
def orders : Files :=
  let lines :=
    ["ack_mode = \"manual\"", "receive_timeout_millis = 1500", "consumer_tag = \"orders\""]
  [("orders.toml", ("\n".intercalate lines).toUTF8)]

/-- Variables for two of the settings. -/
def hurried : Environment :=
  [("RABBITMQ_CONSUMER_ACK_MODE", "auto"), ("rabbitmq_consumer_receive_timeout_millis", "-5")]

/-- Two settings are taken from variables, the tag from the file, and the
last has its default. -/
theorem load_orders_hurried :
    table? orders "orders" = some [("ack_mode", .text "manual"),
      ("receive_timeout_millis", .whole 1500), ("consumer_tag", .text "orders")] ∧
    (hurried.map fun v => lowerName v.1).Nodup ∧
    load orders hurried "orders" =
      .ok { ackMode := .auto, receiveTimeoutMillis := -5, consumerTag := some "orders" } := by
  have hfile : table? orders "orders" = some [("ack_mode", .text "manual"),
      ("receive_timeout_millis", .whole 1500), ("consumer_tag", .text "orders")] := by
    decide +kernel
  have hdistinct : (hurried.map fun v => lowerName v.1).Nodup := by decide +kernel
  have halone : ∀ setting ∈ fieldNames, Alone setting ([("ack_mode", .text "manual"),
      ("receive_timeout_millis", .whole 1500), ("consumer_tag", .text "orders")] ++
        hurried.given) := by
    unfold Alone
    decide +kernel
  refine ⟨hfile, hdistinct,
    (((load_field_by_field hfile hdistinct).fields halone).ok_iff _).mpr ⟨⟨?_, ?_, ?_, ?_⟩, ?_⟩⟩
  · exact takes_iff.mpr (by decide +kernel)
  · exact takes_iff.mpr (by decide +kernel)
  · exact takes_iff.mpr (by decide +kernel)
  · exact takes_iff.mpr (by decide +kernel)
  · rintro _ ⟨⟩
    unfold Usable
    decide +kernel

end MessageIntake.Config
