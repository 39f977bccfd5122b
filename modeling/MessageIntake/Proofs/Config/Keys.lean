import MessageIntake.Config.Load
import MessageIntake.Proofs.Json.Members

/-!
# A file gives each key once

Both formats keep the members of a table apart by their keys: TOML
refuses a key that is there already, and in JSON the later value takes
the place of the earlier. So what a file gives is a table
(`readFile?_distinct`), and so is every table that it gives for a key.
-/

namespace MessageIntake

/-! ## What a reader ensures -/

namespace Text.Reader

variable {α β γ : Type}

/-- Whatever `r` reads satisfies `P`. -/
def Ensures (r : Reader α) (P : α → Prop) : Prop :=
  ∀ s a rest, r s = some (a, rest) → P a

theorem Ensures.of_pure {P : α → Prop} {a : α} (h : P a) : (pure a : Reader α).Ensures P := by
  rintro s _ _ ⟨⟩
  exact h

theorem Ensures.of_fail {P : α → Prop} : (fail : Reader α).Ensures P := by
  rintro s _ _ ⟨⟩

/-- One reader after another ensures what the second does, given what the
first does. -/
theorem Ensures.bind {P : α → Prop} {Q : β → Prop} {r : Reader α} {f : α → Reader β}
    (h : r.Ensures P) (hf : ∀ a, P a → (f a).Ensures Q) : (r >>= f).Ensures Q := by
  intro s b rest hb
  simp only [Bind.bind, StateT.bind] at hb
  obtain ⟨⟨a, s'⟩, ha, hb⟩ := Option.bind_eq_some_iff.mp hb
  exact hf a (h s a s' ha) s' b rest hb

theorem Ensures.after {Q : β → Prop} {r : Reader α} {f : α → Reader β}
    (hf : ∀ a, (f a).Ensures Q) : (r >>= f).Ensures Q :=
  Ensures.bind (P := fun _ => True) (fun _ _ _ _ => trivial) fun a _ => hf a

/-- **An invariant of a repetition**: each step keeps `P`, or ends with
`Q`. -/
theorem Ensures.iterate {P : β → Prop} {Q : γ → Prop} {step : β → Reader (β ⊕ γ)} {b : β}
    (start : P b) (keeps : ∀ b, P b → (step b).Ensures (Sum.elim P Q)) :
    (Reader.iterate step b).Ensures Q := by
  have hsteps : ∀ fuel b, P b → (iterateUpTo step fuel b).Ensures Q := by
    intro fuel
    induction fuel with
    | zero => exact fun b _ => .of_fail
    | succ fuel ih =>
      intro b hb
      refine (keeps b hb).bind fun next hnext => ?_
      cases next with
      | inl b => exact ih b hnext
      | inr c => exact .of_pure hnext
  exact fun s c rest h => hsteps _ b start s c rest h

theorem Ensures.of_readAll {P : α → Prop} {r : Reader α} {s : String} {a : α} (h : r.Ensures P)
    (ha : r.readAll s = some a) : P a := by
  unfold readAll at ha
  split at ha
  · cases ha
    exact h _ _ _ ‹_›
  · cases ha

end Text.Reader

/-! ## TOML -/

namespace Toml

open Text (Reader)

theorem put_eq_assign (key : String) (value : Toml) (members : Members) :
    put key value members = assign key value members := by
  induction members with
  | nil => rfl
  | cons head rest ih => rw [put, assign, ih]

theorem distinct_put {key : String} {value : Toml} {members : Members} (h : Distinct members) :
    Distinct (put key value members) :=
  put_eq_assign key value members ▸ h.assign

/-- The keys of a table are distinct, if the value is one. -/
def Sound (value : Toml) : Prop := ∀ origin inner, value = .table origin inner → Distinct inner

/-- The keys are distinct, and so are those of the tables inside. -/
structure Tidy (members : Members) : Prop where
  distinct : Distinct members
  sound : ∀ x ∈ members, x.2.Sound

theorem Tidy.nil : Tidy [] := ⟨.nil, by simp⟩

theorem Tidy.put {key : String} {value : Toml} {members : Members} (h : Tidy members)
    (hvalue : value.Sound) : Tidy (put key value members) where
  distinct := distinct_put h.distinct
  sound := by
    intro x hx
    rw [put_eq_assign] at hx
    rcases mem_assign hx with rfl | hx
    · exact hvalue
    · exact h.sound x hx

theorem sound_table {origin : Origin} {inner : Members} (h : Distinct inner) :
    (table origin inner).Sound := by
  rintro _ _ ⟨⟩
  exact h

theorem sound_elements (last : Members) (before : List Members) :
    (elements last before).Sound := by
  rintro _ _ ⟨⟩

/-- A table that is found keeps its keys apart. -/
theorem Tidy.of_lookup {key : String} {value : Toml} {members : Members} (h : Tidy members)
    (hvalue : members.lookup key = some value) : value.Sound :=
  h.sound _ (mem_of_lookup hvalue)

/-- What changes members keeps their keys apart. -/
def KeepsDistinct (change : Members → Option Members) : Prop :=
  ∀ {members after}, Distinct members → change members = some after → Distinct after

/-- What changes members also keeps the keys of the tables inside apart. -/
structure KeepsTidy (change : Members → Option Members) : Prop where
  distinct : KeepsDistinct change
  tidy : ∀ {members after}, Tidy members → change members = some after → Tidy after

theorem define_distinct (path : List String) (value : Toml) :
    KeepsDistinct (define path value) := by
  intro members after hdistinct h
  unfold define at h
  split at h
  · cases h
  · split at h
    · cases h
      exact distinct_put hdistinct
    · cases h
  · split at h
    · obtain ⟨inner, -, rfl⟩ := Option.map_eq_some_iff.mp h
      exact distinct_put hdistinct
    · split at h
      · obtain ⟨inner, -, rfl⟩ := Option.map_eq_some_iff.mp h
        exact distinct_put hdistinct
      · cases h
    · split at h
      · cases h
      · obtain ⟨last, -, rfl⟩ := Option.map_eq_some_iff.mp h
        exact distinct_put hdistinct
    · cases h

theorem define_tidy (path : List String) {value : Toml} (hvalue : value.Sound) :
    KeepsTidy (define path value) where
  distinct := define_distinct path value
  tidy {members after} htidy h := by
    unfold define at h
    split at h
    · cases h
    · split at h
      · cases h
        exact htidy.put hvalue
      · cases h
    · split at h
      · obtain ⟨inner, hinner, rfl⟩ := Option.map_eq_some_iff.mp h
        exact htidy.put (sound_table (define_distinct _ value Distinct.nil hinner))
      · rename_i hlookup
        split at h
        · obtain ⟨inner, hinner, rfl⟩ := Option.map_eq_some_iff.mp h
          have hold := htidy.of_lookup hlookup _ _ rfl
          exact htidy.put (sound_table (define_distinct _ value hold hinner))
        · cases h
      · split at h
        · cases h
        · obtain ⟨last, -, rfl⟩ := Option.map_eq_some_iff.mp h
          exact htidy.put (sound_elements _ _)
      · cases h

theorem within_distinct {change : Members → Option Members} (hchange : KeepsDistinct change)
    (path : List String) : KeepsDistinct (within change path) := by
  intro members after hdistinct h
  unfold within at h
  split at h
  · exact hchange hdistinct h
  · split at h
    · obtain ⟨inner, -, rfl⟩ := Option.map_eq_some_iff.mp h
      exact distinct_put hdistinct
    · cases h
    · obtain ⟨inner, -, rfl⟩ := Option.map_eq_some_iff.mp h
      exact distinct_put hdistinct
    · obtain ⟨last, -, rfl⟩ := Option.map_eq_some_iff.mp h
      exact distinct_put hdistinct
    · cases h

theorem within_tidy {change : Members → Option Members} (hchange : KeepsTidy change)
    (path : List String) : KeepsTidy (within change path) where
  distinct := within_distinct hchange.distinct path
  tidy {members after} htidy h := by
    unfold within at h
    split at h
    · exact hchange.tidy htidy h
    · split at h
      · obtain ⟨inner, hinner, rfl⟩ := Option.map_eq_some_iff.mp h
        exact htidy.put (sound_table (within_distinct hchange.distinct _ Distinct.nil hinner))
      · cases h
      · rename_i hlookup
        obtain ⟨inner, hinner, rfl⟩ := Option.map_eq_some_iff.mp h
        have hold := htidy.of_lookup hlookup _ _ rfl
        exact htidy.put (sound_table (within_distinct hchange.distinct _ hold hinner))
      · obtain ⟨last, -, rfl⟩ := Option.map_eq_some_iff.mp h
        exact htidy.put (sound_elements _ _)
      · cases h

theorem openKey_tidy (key : String) : KeepsTidy (openKey key) where
  distinct {members after} hdistinct h := by
    unfold openKey at h
    split at h <;> cases h <;> exact distinct_put hdistinct
  tidy {members after} htidy h := by
    unfold openKey at h
    split at h
    · cases h
      exact htidy.put (sound_table Distinct.nil)
    · rename_i hlookup
      cases h
      exact htidy.put (sound_table (htidy.of_lookup hlookup _ _ rfl))
    · cases h

theorem openElementKey_tidy (key : String) : KeepsTidy (openElementKey key) where
  distinct {members after} hdistinct h := by
    unfold openElementKey at h
    split at h <;> cases h <;> exact distinct_put hdistinct
  tidy {members after} htidy h := by
    unfold openElementKey at h
    split at h <;> cases h <;> exact htidy.put (sound_elements _ _)

theorem openWith_tidy {openLast : String → Members → Option Members}
    (hopen : ∀ key, KeepsTidy (openLast key)) (path : List String) {members after : Members}
    (htidy : Tidy members) (h : openWith openLast path members = some after) : Tidy after := by
  unfold openWith at h
  split at h
  · cases h
  · exact (within_tidy (hopen _) _).tidy htidy h

/-! ## Reading TOML -/

theorem int64?_sound {n : Int} {value : Toml} (h : int64? n = some value) : value.Sound := by
  unfold int64? at h
  split at h
  · cases h
    rintro _ _ ⟨⟩
  · cases h

theorem based?_sound {base : Nat} {digits : List Char} {value : Toml}
    (h : based? base digits = some value) : value.Sound := by
  obtain ⟨read, -, hint⟩ := Option.bind_eq_some_iff.mp h
  exact int64?_sound hint

theorem decimalNumber?_sound {negative : Bool} {s : List Char} {value : Toml}
    (h : decimalNumber? negative s = some value) : value.Sound := by
  obtain ⟨before, -, hnumber⟩ := Option.bind_eq_some_iff.mp h
  dsimp only at hnumber
  split at hnumber
  · exact int64?_sound hnumber
  · split at hnumber
    all_goals
      obtain ⟨after, -, hscaled⟩ := Option.bind_eq_some_iff.mp hnumber
      split at hscaled
      all_goals
        obtain ⟨scale, -, hfloat⟩ := Option.bind_eq_some_iff.mp hscaled
        split at hfloat <;> cases hfloat
        rintro _ _ ⟨⟩

/-- A word is no table. -/
theorem word?_sound {s : List Char} {value : Toml} (h : word? s = some value) : value.Sound := by
  unfold word? at h
  split at h
  · cases h
    rintro _ _ ⟨⟩
  · cases h
    rintro _ _ ⟨⟩
  · exact based?_sound h
  · exact based?_sound h
  · exact based?_sound h
  · dsimp only at h
    split at h
    · cases h
      rintro _ _ ⟨⟩
    · cases h
      rintro _ _ ⟨⟩
    · rcases Option.or_eq_some_iff.mp h with hnumber | ⟨-, hmoment⟩
      · exact decimalNumber?_sound hnumber
      · obtain ⟨m, -, rfl⟩ := Option.map_eq_some_iff.mp hmoment
        rintro _ _ ⟨⟩

theorem defined_distinct {path : List String} {value : Toml} {members : Members}
    (h : Distinct members) : (defined path value members).Ensures Distinct := by
  unfold defined
  split
  · rename_i hdefine
    exact .of_pure (define_distinct path value h hdefine)
  · exact .of_fail

theorem bracesRest_sound (item : Reader Toml) : (bracesRest item).Ensures Sound := by
  refine .iterate (P := Distinct) Distinct.nil fun read hread => .after fun _ =>
    .after fun closes => ?_
  cases closes with
  | true => exact .of_pure (sound_table hread)
  | false =>
    refine .after fun _ => (defined_distinct hread).bind fun read hread => .after fun more => ?_
    cases more with
    | true => exact .of_pure hread
    | false => exact .after fun _ => .of_pure (sound_table hread)

theorem word_sound : word.Ensures Sound := by
  refine .after fun read => .after fun s => ?_
  split
  · rename_i hword
    exact .of_pure (word?_sound hword)
  · exact .of_fail

theorem arrayRest_sound (item : Reader Toml) : (arrayRest item).Ensures Sound := by
  refine .iterate (P := fun _ => True) trivial fun read _ => .after fun _ => .after fun closes => ?_
  cases closes with
  | true => exact .of_pure (by rintro _ _ ⟨⟩)
  | false =>
    refine .after fun value => .after fun _ => .after fun more => ?_
    cases more with
    | true => exact .of_pure trivial
    | false => exact .after fun _ => .of_pure (by rintro _ _ ⟨⟩)

/-- **A value that is a table gives each key once.** -/
theorem valueOf_sound (item : Option (Reader Toml)) : (valueOf item).Ensures Sound := by
  refine .after fun front => ?_
  split
  · exact .after fun s => .of_pure (by rintro _ _ ⟨⟩)
  · exact .after fun s => .of_pure (by rintro _ _ ⟨⟩)
  · refine .after fun _ => ?_
    cases item with
    | none => exact .of_fail
    | some item => exact arrayRest_sound item
  · refine .after fun _ => ?_
    cases item with
    | none => exact .of_fail
    | some item => exact bracesRest_sound item
  · exact word_sound

theorem value_sound (depth : Nat) : (value depth).Ensures Sound := by
  cases depth <;> exact valueOf_sound _

theorem Draft.change_tidy {d : Draft} {members : Option Members}
    (h : ∀ after, members = some after → Tidy after) :
    (d.change members).Ensures fun d => Tidy d.members := by
  unfold Draft.change
  split
  · exact .of_pure (h _ rfl)
  · exact .of_fail

theorem headerRest_tidy {d : Draft} (h : Tidy d.members) :
    (headerRest d).Ensures fun d => Tidy d.members := by
  refine .after fun again => ?_
  cases again with
  | true =>
    exact .after fun path => .after fun _ =>
      (Draft.change_tidy fun after => openWith_tidy openElementKey_tidy path h).bind
        fun d hd => .of_pure hd
  | false =>
    exact .after fun path => .after fun _ =>
      (Draft.change_tidy fun after => openWith_tidy openKey_tidy path h).bind
        fun d hd => .of_pure hd

theorem keyValue_sound (skip : Reader Unit) {item : Reader Toml} (h : item.Ensures Sound) :
    (keyValue skip item).Ensures fun x => x.2.Sound :=
  .after fun _ => .after fun _ => .after fun _ => .after fun _ => h.bind fun _ hvalue =>
    .after fun _ => .of_pure hvalue

theorem line_tidy (depth : Nat) {d : Draft} (h : Tidy d.members) :
    (line depth d).Ensures fun d => Tidy d.members := by
  refine .after fun _ => .after fun front => ?_
  split
  · exact .of_pure h
  · exact .of_pure h
  · exact .of_pure h
  · exact .of_pure h
  · exact .after fun _ => headerRest_tidy h
  · exact (keyValue_sound blanks (value_sound depth)).bind fun given hgiven =>
      Draft.change_tidy fun after => (within_tidy (define_tidy given.1 hgiven) d.current).tidy h

theorem document_tidy (depth : Nat) : (document depth).Ensures Tidy := by
  refine .after fun _ => .iterate (P := fun d => Tidy d.members) Tidy.nil fun d hd => ?_
  refine (line_tidy depth hd).bind fun d hd => .after fun _ => .after fun _ => .after fun ends => ?_
  cases ends with
  | true => exact .of_pure hd
  | false =>
    refine .after fun goesOn => ?_
    cases goesOn with
    | true => exact .of_pure hd
    | false => exact .of_fail

/-- **A document gives each key once**, and so does every table in it. -/
theorem parse?_tidy {s : String} {members : Members} (h : parse? s = some members) :
    Tidy members :=
  (document_tidy depthLimit).of_readAll h

end Toml

/-! ## JSON -/

namespace Json

open Text (Reader)

theorem insert_eq_assign (key : String) (value : Json) (members : List (String × Json)) :
    insert key value members = assign key value members := by
  induction members with
  | nil => rfl
  | cons head rest ih => rw [insert, assign, ih]

/-- The keys of an object are distinct, if the value is one. -/
def Sound (value : Json) : Prop := ∀ members, value = .obj members → Distinct members

/-- The keys are distinct, and so are those of the objects inside, if the
value is an object. -/
def Tidy (value : Json) : Prop :=
  ∀ members, value = .obj members → Distinct members ∧ ∀ x ∈ members, x.2.Sound

theorem Tidy.toSound {value : Json} (h : value.Tidy) : value.Sound :=
  fun members hvalue => (h members hvalue).1

theorem floating_tidy (negative : Bool) (whole fraction : List Char) (exponent : Int) :
    (floating negative whole fraction exponent).Ensures Tidy := by
  unfold floating
  dsimp only
  split
  · exact .of_pure (by rintro _ ⟨⟩)
  · exact .of_fail

theorem number_tidy : number.Ensures Tidy := by
  refine .after fun negative => .after fun whole => ?_
  dsimp only
  split
  · exact .bind (P := fun _ => False) .of_fail fun _ h => h.elim
  · refine .after fun point => ?_
    split
    all_goals
      refine .after fun fraction => .after fun exponent => ?_
      split
      · split
        · exact .of_pure (by rintro _ ⟨⟩)
        · split
          · exact .of_pure (by rintro _ ⟨⟩)
          · exact floating_tidy _ _ _ _
      · exact floating_tidy _ _ _ _

theorem arrayRest_tidy (item : Reader Json) : (arrayRest item).Ensures Tidy := by
  refine .after fun _ => .after fun closes => ?_
  cases closes with
  | true => exact .of_pure (by rintro _ ⟨⟩)
  | false =>
    refine .iterate (P := fun _ => True) trivial fun read _ => ?_
    refine .after fun value => .after fun _ => .after fun more => ?_
    cases more with
    | true => exact .of_pure trivial
    | false => exact .after fun _ => .of_pure (by rintro _ ⟨⟩)

/-- **Of two members with one key the later counts.** -/
theorem objectRest_tidy {item : Reader Json} (hitem : item.Ensures Sound) :
    (objectRest item).Ensures Tidy := by
  refine .after fun _ => .after fun closes => ?_
  cases closes with
  | true => exact .of_pure (by rintro _ ⟨⟩; exact ⟨.nil, by simp⟩)
  | false =>
    refine .iterate (P := fun read => Tidy (.obj read)) ?_ fun read hread => ?_
    · rintro _ ⟨⟩
      exact ⟨.nil, by simp⟩
    · refine .after fun _ => .after fun _ => .after fun key => .after fun _ => .after fun _ =>
        hitem.bind fun value hvalue => .after fun _ => .after fun more => ?_
      have hinsert : Tidy (.obj (insert key value read)) := by
        rintro _ ⟨⟩
        obtain ⟨hdistinct, hsound⟩ := hread read rfl
        rw [insert_eq_assign]
        refine ⟨hdistinct.assign, fun x hx => ?_⟩
        rcases mem_assign hx with rfl | hx
        · exact hvalue
        · exact hsound x hx
      cases more with
      | true => exact .of_pure hinsert
      | false => exact .after fun _ => .of_pure hinsert

theorem valueOf_tidy {item : Option (Reader Json)} (hitem : ∀ r ∈ item, r.Ensures Sound) :
    (valueOf item).Ensures Tidy := by
  refine .after fun _ => .after fun front => ?_
  split
  · exact .after fun _ => .after fun s => .of_pure (by rintro _ ⟨⟩)
  · refine .after fun _ => ?_
    cases item with
    | none => exact .of_fail
    | some item => exact arrayRest_tidy item
  · refine .after fun _ => ?_
    cases item with
    | none => exact .of_fail
    | some item => exact objectRest_tidy (hitem item rfl)
  · exact .after fun _ => .of_pure (by rintro _ ⟨⟩)
  · exact .after fun _ => .of_pure (by rintro _ ⟨⟩)
  · exact .after fun _ => .of_pure (by rintro _ ⟨⟩)
  · exact number_tidy

theorem value_tidy (depth : Nat) : (value depth).Ensures Tidy := by
  induction depth with
  | zero => exact valueOf_tidy (by simp)
  | succ depth ih =>
    refine valueOf_tidy fun r hr => ?_
    cases hr
    exact fun s a rest h => (ih s a rest h).toSound

/-- **An object gives each key once**, and so does every object in it. -/
theorem parse?_tidy {s : String} {read : Json} (h : parse? s = some read) : read.Tidy :=
  Reader.Ensures.of_readAll
    ((value_tidy depthLimit).bind fun _ hread => .after fun _ => .of_pure hread) h

end Json

/-! ## Files -/

namespace Config

/-- The keys of a table are distinct, if the value is one. -/
def Value.Sound (value : Value) : Prop := value.keys.Nodup

theorem Value.sound_ofToml {value : Toml} (h : value.Sound) : (ofToml value).Sound := by
  cases value with
  | table origin members => exact h origin members rfl
  | str s | int n | float x | bool b | moment m | arr items | elements last before =>
    exact List.nodup_nil

theorem Value.sound_ofJson {value : Json} (h : value.Sound) : (ofJson value).Sound := by
  cases value with
  | obj members => exact h members rfl
  | null | bool b | int n | float x | str s | arr items => exact List.nodup_nil

theorem distinct_map {β γ : Type} {members : List (String × β)} (f : β → γ)
    (h : Distinct members) : Distinct (members.map fun x => (x.1, f x.2)) := by
  simpa [Distinct, Function.comp_def] using h

/-- **What a file gives is a table**: each key once, and each key of the
tables in it once. -/
theorem readFile?_distinct {format : Format} {bytes : ByteArray} {file : List (String × Value)}
    (h : readFile? format bytes = some file) : Distinct file ∧ ∀ x ∈ file, x.2.Sound := by
  cases format with
  | toml =>
    obtain ⟨members, hparse, rfl⟩ := Option.map_eq_some_iff.mp h
    have htidy := Toml.parse?_tidy hparse
    refine ⟨distinct_map Value.ofToml htidy.distinct, fun x hx => ?_⟩
    obtain ⟨member, hmember, rfl⟩ := List.mem_map.mp hx
    exact Value.sound_ofToml (htidy.sound member hmember)
  | json =>
    unfold readFile? at h
    dsimp only at h
    split at h
    · rename_i members hparse
      cases h
      obtain ⟨hdistinct, hsound⟩ := Json.parse?_tidy hparse members rfl
      refine ⟨distinct_map Value.ofJson hdistinct, fun x hx => ?_⟩
      obtain ⟨member, hmember, rfl⟩ := List.mem_map.mp hx
      exact Value.sound_ofJson (hsound member hmember)
    · cases h

end Config

end MessageIntake
