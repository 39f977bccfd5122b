import MessageIntake.Proofs.Config.Loading
import MessageIntake.Proofs.Json.Record

/-!
# A written configuration loads back

A configuration is written as a JSON record and comes back in two ways:
the record is read as it is, strictly, or a file that holds it is loaded,
by way of values that each setting converts from several kinds. Both find
the configuration again, whatever its settings are and whichever of them
are left out because they have their defaults (`loads_back`). A load
looks at the tag besides, as `validate` does.
-/

namespace MessageIntake.Config

open Json (Restates)

/-- The members of the JSON form. -/
def form (c : Config) : List (String × Json) :=
  [("ack_mode", .str c.ackMode.text), ("receive_timeout_millis", .int c.receiveTimeoutMillis.toInt),
    ("requeue_on_failure", .bool c.requeueOnFailure), ("consumer_tag", .ofText? c.consumerTag)]

/-- `kept` is the form of a configuration, but for settings that have their
defaults. -/
structure Abridged (c : Config) (kept : List (String × Json)) : Prop where
  sublist : kept.Sublist c.form
  lacks : ∀ m ∈ c.form, m ∈ kept ∨ m ∈ ({} : Config).form

section Reading

variable {c : Config} {members kept : List (String × Json)} {given : String → Option Json}

theorem distinct_form (c : Config) : Distinct c.form :=
  (by decide : fieldNames.Nodup)

theorem Abridged.refl (c : Config) : c.Abridged c.form :=
  ⟨.refl _, fun _ h => .inl h⟩

theorem Abridged.restates (h : c.Abridged kept)
    (hmembers : (members.filter fun m => m.1 ∈ fieldNames).Perm kept) :
    Restates (fun m => m ∈ ({} : Config).form) c.form fun name => members.lookup name :=
  .of_members (distinct_form c) h.sublist h.lacks hmembers

/-! ## Two ways of reading a record -/

/-- A way of reading the four settings from JSON values. -/
structure Readers where
  ackMode : Json → Option AckMode
  receiveTimeoutMillis : Json → Option Int64
  requeueOnFailure : Json → Option Bool
  consumerTag : Json → Option (Option String)

namespace Readers

/-- The configuration that is read from what is given for the settings. -/
def read (readers : Readers) (given : String → Option Json) : Option Config :=
  (Json.orElse .manual readers.ackMode (given "ack_mode")).bind fun ackMode =>
  (Json.orElse 60000 readers.receiveTimeoutMillis (given "receive_timeout_millis")).bind
    fun millis =>
  (Json.orElse true readers.requeueOnFailure (given "requeue_on_failure")).bind fun requeue =>
  (Json.orElse none readers.consumerTag (given "consumer_tag")).bind fun tag =>
  some ⟨ackMode, millis, requeue, tag⟩

/-- Each setting is read from what is written for it. -/
structure Sound (readers : Readers) : Prop where
  ackMode : ∀ mode, readers.ackMode (.str mode.text) = some mode
  receiveTimeoutMillis : ∀ millis, readers.receiveTimeoutMillis (.int millis.toInt) = some millis
  requeueOnFailure : ∀ requeue, readers.requeueOnFailure (.bool requeue) = some requeue
  consumerTag : ∀ tag, readers.consumerTag (.ofText? tag) = some tag

/-- The record is read as it is. -/
def strict : Readers :=
  ⟨AckMode.ofJson?, int64?, Json.truth?, fun j => Json.nullable Json.text? (some j)⟩

/-- The value that a file gives for a setting. -/
def fromFile (j : Json) : Value := (Value.ofJson j).place [] none

/-- Each setting converts what a file gives for it. -/
def lenient : Readers :=
  ⟨fun j => (fromFile j).toAckMode?, fun j => (fromFile j).toInt64?, fun j => (fromFile j).toBool?,
    fun j => (fromFile j).toOptionalText?⟩

theorem strict_sound : strict.Sound where
  ackMode := AckMode.ofName?_text
  receiveTimeoutMillis millis := by
    have hrange : Int64.minValue.toInt ≤ millis.toInt ∧ millis.toInt ≤ Int64.maxValue.toInt :=
      ⟨millis.minValue_le_toInt, millis.toInt_le⟩
    simp only [strict, int64?, Json.int?, if_pos hrange, Option.map_some, Int64.ofInt_toInt]
  requeueOnFailure _ := rfl
  consumerTag := Json.nullable_ofText?

theorem lenient_sound : lenient.Sound where
  ackMode := AckMode.ofName?_text
  receiveTimeoutMillis millis := by
    have hrange : Value.int64Min ≤ millis.toInt ∧ millis.toInt ≤ Value.int64Max :=
      ⟨millis.minValue_le_toInt, millis.toInt_le⟩
    have hfile : fromFile (.int millis.toInt) = .whole millis.toInt := rfl
    simp only [lenient, hfile, Value.toInt64?, if_pos hrange, Int64.ofInt_toInt]
  requeueOnFailure _ := rfl
  consumerTag tag := by cases tag <;> rfl

theorem ofJson?_eq {j : Json} (h : j.fields? fieldNames = some given) :
    ofJson? j = strict.read given := by
  have htag : Json.nullable Json.text? (given "consumer_tag") =
      Json.orElse none strict.consumerTag (given "consumer_tag") := by
    cases given "consumer_tag" <;> rfl
  rw [read, ← htag, ofJson?, h]
  rfl

theorem ofValues?_eq (given : String → Option Json) :
    ofValues? (fun setting => (given setting).map fromFile) = lenient.read given := by
  have horElse {α : Type} (setting : String) (default : α) (convert : Value → Option α) :
      ((given setting).map fromFile).elim (some default) convert =
        Json.orElse default (fun j => convert (fromFile j)) (given setting) := by
    cases given setting <;> rfl
  rw [Config.ofValues?_eq, horElse, horElse, horElse, horElse]
  rfl

/-- A setting is regained: if it lacks it had its default, which is written
the same. -/
theorem setting_regained {α : Type} {name : String} {write : α → Json} {read : Json → Option α}
    {field default : α} (hread : ∀ a, read (write a) = some a)
    (hobj : ∀ a ms, write a ≠ .obj ms) (hfield : (name, write field) ∈ c.form)
    (hdefault : (name, write default) ∈ ({} : Config).form)
    (h : Restates (fun m => m ∈ ({} : Config).form) c.form given) :
    Json.orElse default read (given name) = some field := by
  refine h.orElse hfield (hobj field) (fun hlacks => ?_) (hread field)
  have hsame : write field = write default := (distinct_form {}).unique hlacks hdefault
  have hboth : some field = some default := by rw [← hread field, hsame, hread]
  exact Option.some.inj hboth

/-- **A configuration is regained from what restates it.** -/
theorem Sound.read_eq {readers : Readers} (hsound : readers.Sound)
    (h : Restates (fun m => m ∈ ({} : Config).form) c.form given) :
    readers.read given = some c := by
  have member {c : Config} {m : String × Json} {i : Nat} (hmem : c.form[i]? = some m) :
      m ∈ c.form := List.mem_of_getElem? hmem
  rw [read, setting_regained hsound.ackMode (fun _ _ => Json.noConfusion) (member (i := 0) rfl)
      (member (i := 0) rfl) h,
    setting_regained hsound.receiveTimeoutMillis (fun _ _ => Json.noConfusion) (member (i := 1) rfl)
      (member (i := 1) rfl) h,
    setting_regained hsound.requeueOnFailure (fun _ _ => Json.noConfusion) (member (i := 2) rfl)
      (member (i := 2) rfl) h,
    setting_regained hsound.consumerTag Json.ofText?_ne_obj (member (i := 3) rfl) (member (i := 3) rfl) h]
  rfl

end Readers

end Reading

/-! ## Loading a file that holds the form -/

section Loading

variable {c : Config} {members kept : List (String × Json)} {files : Files}
  {environment : Environment} {path : String} {bytes : ByteArray}

/-- No variable of the environment is for a key. -/
def Environment.Silent (environment : Environment) : Prop := ∀ v ∈ environment, keyOf? v.1 = none

theorem Environment.Silent.given (h : environment.Silent) : environment.given = [] := by
  refine List.filterMap_eq_nil_iff.mpr fun v hv => ?_
  dsimp only
  rw [h v hv, Option.map_none]

/-- Each setting is given as the file has it. -/
theorem effective_of_members (hdistinct : Distinct members)
    (hnames : ∀ m ∈ members, m.1 ∈ fieldNames) (hsilent : environment.Silent) {setting : String}
    (hsetting : setting ∈ fieldNames) :
    (effective (members.map fun m => (m.1, Value.ofJson m.2)) environment).get? setting =
      (members.lookup setting).map Readers.fromFile := by
  have halone : Alone setting (members.map fun m => (m.1, Value.ofJson m.2)) := by
    intro entry hentry hleads
    obtain ⟨m, hm, rfl⟩ := List.mem_map.mp hentry
    rwa [ofKey_fieldName (hnames m hm)] at hleads
  rw [get?_effective, hsilent.given, placed_of_alone hsetting (distinct_map _ hdistinct) halone,
    lookup_map, Option.or_none, Option.map_map]
  rfl

theorem Abridged.read (hkept : c.Abridged kept) (hmembers : members.Perm kept)
    (hfind : files.find? path = some (.json, bytes))
    (hparse : Json.parse? (decodeFile bytes) = some (.obj members))
    (hsilent : environment.Silent) : read files environment path = .ok c := by
  have hfile : table? files path = some (members.map fun m => (m.1, Value.ofJson m.2)) := by
    simp only [table?, hfind, Option.bind_some, readFile?, hparse]
  have hnames : ∀ m ∈ members, m.1 ∈ fieldNames := fun m hm =>
    List.mem_map_of_mem (hkept.sublist.subset (hmembers.mem_iff.mp hm))
  have hdistinct : Distinct members :=
    (hmembers.map Prod.fst).nodup_iff.mpr ((distinct_form c).sublist (hkept.sublist.map _))
  have hrestates : Restates (fun m => m ∈ ({} : Config).form) c.form
      fun name => members.lookup name := by
    refine hkept.restates ?_
    rwa [List.filter_eq_self.mpr fun m hm => decide_eq_true (hnames m hm)]
  have hvalues : ofValues? (effective (members.map fun m => (m.1, Value.ofJson m.2))
      environment).get? = some c := by
    rw [← Readers.lenient_sound.read_eq hrestates, ← Readers.ofValues?_eq]
    refine ofValues?_congr fun setting hsetting => ?_
    rw [effective_of_members hdistinct hnames hsilent hsetting]
    cases members.lookup setting with
    | none => exact .none
    | some j => exact .some (.refl _)
  rw [read_of_table? hfile, hvalues]
  rfl

end Loading

/-! ## The configuration comes back -/

/-- **What it means that a configuration loads back.** -/
structure LoadsBack (c : Config) : Prop where
  /-- Each setting is written under its own name. -/
  form : c.toJson = .obj
    [("ack_mode", .str c.ackMode.text),
      ("receive_timeout_millis", .int c.receiveTimeoutMillis.toInt),
      ("requeue_on_failure", .bool c.requeueOnFailure), ("consumer_tag", .ofText? c.consumerTag)]
  /-- What is written is read back. -/
  itself : ofJson? c.toJson = some c
  /-- So is a record without settings that have their defaults, in whatever order
  and whatever other members are beside. -/
  leftOut {members kept : List (String × Json)} : c.Abridged kept →
    (members.filter fun m => m.1 ∈ fieldNames).Perm kept → ofJson? (.obj members) = some c
  /-- A file that holds the form is loaded as the configuration if it may be
  used, and is refused with its own error otherwise. -/
  loads {files : Files} {environment : Environment} {path : String} {bytes : ByteArray}
    {members kept : List (String × Json)} : c.Abridged kept → members.Perm kept →
    files.find? path = some (.json, bytes) →
    Json.parse? (decodeFile bytes) = some (.obj members) → environment.Silent →
    (c.validate = .ok () → load files environment path = .ok c) ∧
    ∀ e, c.validate = .error e → load files environment path = .error e ∧
      ∃ tag reason, c.consumerTag = some tag ∧ e = .configInvalidValue "consumer_tag" tag reason

/-- **A written configuration loads back.** -/
theorem loads_back (c : Config) : c.LoadsBack := by
  have leftOut {members kept : List (String × Json)} (hkept : c.Abridged kept)
      (hmembers : (members.filter fun m => m.1 ∈ fieldNames).Perm kept) :
      ofJson? (.obj members) = some c := by
    rw [Readers.ofJson?_eq rfl]
    exact Readers.strict_sound.read_eq (hkept.restates hmembers)
  refine ⟨rfl, leftOut (.refl c) ?_, leftOut, ?_⟩
  · have hall : c.form.filter (fun m => m.1 ∈ fieldNames) = c.form :=
      List.filter_eq_self.mpr fun m hm => decide_eq_true (List.mem_map_of_mem hm)
    exact .of_eq hall
  · intro files environment path bytes members kept hkept hmembers hfind hparse hsilent
    have hread : read files environment path = .ok c :=
      hkept.read hmembers hfind hparse hsilent
    refine ⟨fun hvalid => ?_, fun e hinvalid => ⟨?_, ?_⟩⟩
    · rw [load, hread]
      dsimp only
      rw [hvalid]
    · rw [load, hread]
      dsimp only
      rw [hinvalid]
    · rcases validate_cases c with ⟨hvalid, -⟩ | ⟨tag, reason, htag, -, herror⟩
      · rw [hvalid] at hinvalid
        cases hinvalid
      · rw [herror] at hinvalid
        cases hinvalid
        exact ⟨tag, reason, htag, rfl⟩

/-- A tag of digits is a text in a file, and keeps the zeros in front of it. -/
example :
    let file := "\x7b\"receive_timeout_millis\": -9223372036854775808, \"consumer_tag\": \"007\"\x7d"
    load [("consumer.json", file.toUTF8)] [("RABBITMQ_CONSUMER", "auto")] "consumer" =
      .ok { receiveTimeoutMillis := Int64.minValue, consumerTag := some "007" } := by
  decide +kernel

end MessageIntake.Config
