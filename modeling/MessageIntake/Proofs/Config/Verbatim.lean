import MessageIntake.Proofs.Config.Loading
import MessageIntake.Proofs.Number.Canonical

/-!
# A consumer tag from the environment

The text of a variable is taken for a truth value or a number where it
is one, and a setting that takes text gets the text of that value. So a
consumer tag that a variable gives is taken verbatim unless its text is
`Restated`: a truth value in capitals, a whole number with a plus or with
zeros in front, a floating-point number that is not written in full and
in the fewest digits. A file's tag is verbatim whatever it is
(`tag_verbatim`).
-/

namespace MessageIntake.Config

open Text (Reader)

variable {s : String}

/-- The text that is left of a variable's text. -/
def rendered (s : String) : String := (Value.ofVariable s).toText?.getD s

/-- Whether a text that gave a value is the way that the value is written. -/
def Value.WrittenAs (s : String) : Value → Prop
  | truth b => s = if b then "true" else "false"
  | whole _ => Number.Canonical s.toList
  | real x => s = x.text
  | text t => s = t
  | nothing | list | table _ => False

/-- The text of a truth value or of a number, not written the way that one
is written. -/
def Restated (s : String) : Prop := ¬ (Value.ofVariable s).WrittenAs s

/-! ## What is left of a text -/

theorem whole_of_int64? {m : Int64} (h : Number.int64? s = some m) :
    Number.whole.readAll s = some m.toInt := by
  unfold Number.int64? at h
  split at h
  · rename_i n hn
    split at h
    · rename_i hrange
      cases h
      have hmin : Int64.minValue.toInt = -2 ^ 63 := by decide
      have hmax : Int64.maxValue.toInt = 2 ^ 63 - 1 := by decide
      rw [hn, Int64.toInt_ofInt_of_le (by omega) (by omega)]
    · cases h
  · cases h

/-- What the text of a variable is taken for. -/
theorem ofVariable_cases (s : String) :
    (∃ b, Value.ofVariable s = .truth b) ∨
    (∃ n, Value.ofVariable s = .whole n ∧ Number.whole.readAll s = some n) ∨
    (∃ x, Value.ofVariable s = .real x) ∨ Value.ofVariable s = .text s := by
  unfold Value.ofVariable
  split
  · exact .inl ⟨_, rfl⟩
  · exact .inl ⟨_, rfl⟩
  · split
    · rename_i m hm
      exact .inr (.inl ⟨_, rfl, whole_of_int64? hm⟩)
    · split
      · exact .inr (.inr (.inl ⟨_, rfl⟩))
      · exact .inr (.inr (.inr rfl))

/-- **The text is left as it was, unless it is restated.** -/
theorem rendered_eq_iff : rendered s = s ↔ ¬ Restated s := by
  rw [Restated, not_not, rendered]
  rcases ofVariable_cases s with ⟨b, h⟩ | ⟨n, h, hn⟩ | ⟨x, h⟩ | h <;> rw [h]
  · exact eq_comm
  · exact Number.toString_eq_iff_canonical hn
  · exact eq_comm
  · exact ⟨fun _ => rfl, fun _ => rfl⟩

/-! ## Texts that are no numbers -/

section Names

variable {first : Char} {rest : List Char}

/-- What no number begins with, the words for numbers aside. -/
def BeginsName (c : Char) : Prop := ¬ c.isDigit ∧ c ≠ '+' ∧ c ≠ '-' ∧ c ≠ '.'

theorem sign_of_name (h : BeginsName first) :
    Number.sign (first :: rest) = some (false, first :: rest) := by
  rcases Number.sign_cases (first :: rest) with ⟨_, heq, -⟩ | ⟨_, heq, -⟩ | ⟨-, -, hsign⟩
  · cases heq
    exact absurd rfl h.2.2.1
  · cases heq
    exact absurd rfl h.2.1
  · exact hsign

theorem int64?_of_name (hs : s.toList = first :: rest) (h : BeginsName first) :
    Number.int64? s = none := by
  cases hint : Number.int64? s with
  | none => rfl
  | some m =>
    obtain ⟨negative, digits, hsign, -, hdigits, -⟩ := Number.of_whole (whole_of_int64? hint)
    rw [hs, sign_of_name h] at hsign
    cases hsign
    exact absurd (hdigits first List.mem_cons_self) h.1

theorem floating_of_name (negative : Bool) (h : BeginsName first) :
    Number.floating negative (first :: rest) = none := by
  obtain ⟨hdigit, -, -, hpoint⟩ := h
  have hp : ¬ '.' = first := Ne.symm hpoint
  simp [Number.floating, Number.digits, Reader.takeWhile, Reader.accept, Reader.fail, bind,
    StateT.bind, Number.read_pure, hdigit, hp]

theorem binary64?_of_name (hs : s.toList = first :: rest) (h : BeginsName first)
    (hwords : s.toLower ∉ ["inf", "infinity", "nan"]) : Number.binary64? s = none := by
  have htext : String.ofList (first :: rest) = s := by rw [← hs, String.ofList_toList]
  simp only [List.mem_cons, List.not_mem_nil, or_false, not_or] at hwords
  obtain ⟨hinf, hinfinity, hnan⟩ := hwords
  unfold Number.binary64? Reader.readAll
  simp only [bind, StateT.bind, hs, sign_of_name h, Option.bind_some, get, getThe, MonadStateOf.get,
    StateT.get, pure, htext]
  split
  · rename_i hread
    rw [floating_of_name false h] at hread
    cases hread
  · rfl

/-- **A text that begins like a name is taken verbatim**, unless it is one of
the words for truth values and numbers. -/
theorem not_restated_of_name (hs : s.toList = first :: rest) (h : BeginsName first)
    (hwords : s.toLower ∉ ["true", "false", "inf", "infinity", "nan"]) : ¬ Restated s := by
  simp only [List.mem_cons, List.not_mem_nil, or_false, not_or] at hwords
  obtain ⟨htrue, hfalse, hnumbers⟩ := hwords
  have hvalue : Value.ofVariable s = .text s := by
    unfold Value.ofVariable
    split
    · exact absurd ‹_› htrue
    · exact absurd ‹_› hfalse
    · rw [int64?_of_name hs h, binary64?_of_name hs h (by simpa using hnumbers)]
  rw [Restated, hvalue, not_not]
  rfl

end Names

/-! ## Loading a tag -/

/-- Apart from the tag, the configuration has what is given. -/
def ReadsOtherwise (given : String → Option Value) (c : Config) : Prop :=
  Reads (fun setting => if setting = "consumer_tag" then none else given setting) c

/-- The environment gives the tag as `s`: by the setting's own variable, and
by no path into the setting. -/
structure Environment.GivesTag (environment : Environment) (s : String) : Prop where
  distinct : (environment.map fun v => lowerName v.1).Nodup
  text : environment.text? "consumer_tag" = some s
  alone : Alone "consumer_tag" environment.given

/-- The environment leaves the tag as the file gives it: as the text `s`, and
by no path into the setting. -/
structure Environment.LeavesTag (environment : Environment) (file : List (String × Value))
    (s : String) : Prop where
  distinct : (environment.map fun v => lowerName v.1).Nodup
  text : environment.text? "consumer_tag" = none
  inFile : file.lookup "consumer_tag" = some (.text s)
  alone : Alone "consumer_tag" (file ++ environment.given)

/-- The configuration with a tag. -/
def tagged (c : Config) (tag : String) : Config := { c with consumerTag := some tag }

/-- **What it means that a consumer tag is taken verbatim** from a variable,
unless its text is one of `Loses`, when `path` is loaded. -/
structure TagVerbatim (Loses : String → Prop) (files : Files) (path : String) : Prop where
  /-- What else is loaded does not matter, as long as it can be read. -/
  verbatim : ∀ {file environment s c}, table? files path = some file →
    environment.GivesTag s → ReadsOtherwise (effective file environment).get? c → Usable s →
    ¬ Loses s → load files environment path = .ok (tagged c s)
  /-- A text that is lost leaves another, which is the tag or is refused. -/
  lost : ∀ {file environment s c}, table? files path = some file →
    environment.GivesTag s → ReadsOtherwise (effective file environment).get? c → Loses s →
    rendered s ≠ s ∧
    (Usable (rendered s) → load files environment path = .ok (tagged c (rendered s))) ∧
    (¬ Usable (rendered s) → ∃ reason, load files environment path =
      .error (.configInvalidValue "consumer_tag" (rendered s) reason))
  /-- A text in the file is never lost. -/
  inFile : ∀ {file environment s c}, table? files path = some file →
    environment.LeavesTag file s →
    ReadsOtherwise (effective file environment).get? c → Usable s →
    load files environment path = .ok (tagged c s)

section Loading

variable {given : String → Option Value} {file : List (String × Value)}
  {environment : Environment} {c : Config} {v : Value} {tag : Option String}

/-- The tag is read apart from the other settings. -/
theorem ReadsOtherwise.with_tag (h : ReadsOtherwise given c) (hgiven : given "consumer_tag" = some v)
    (htag : v.toOptionalText? = some tag) : Reads given { c with consumerTag := tag } where
  ackMode := h.ackMode
  receiveTimeoutMillis := h.receiveTimeoutMillis
  requeueOnFailure := h.requeueOnFailure
  consumerTag := by
    rw [hgiven]
    exact htag

/-- A variable for the tag is all that counts for it. -/
theorem effective_tag (h : environment.GivesTag s) :
    (effective file environment).get? "consumer_tag" = some (Value.ofVariable s) := by
  rw [get?_effective, placed_of_alone (by decide) (distinct_given h.distinct) h.alone,
    lookup_given, h.text]
  simp [Value.place_ofVariable]

theorem toOptionalText?_ofVariable (s : String) :
    (Value.ofVariable s).toOptionalText? = some (some (rendered s)) := by
  rcases ofVariable_cases s with ⟨b, h⟩ | ⟨n, h, -⟩ | ⟨x, h⟩ | h <;> rw [rendered, h] <;> rfl

theorem reads_rendered (h : environment.GivesTag s)
    (hreads : ReadsOtherwise (effective file environment).get? c) :
    Reads (effective file environment).get? (tagged c (rendered s)) :=
  hreads.with_tag (effective_tag h) (toOptionalText?_ofVariable s)

theorem usable_tagged (h : Usable s) : ∀ tag ∈ (tagged c s).consumerTag, Usable tag := by
  rintro _ ⟨⟩
  exact h

end Loading

/-- **A consumer tag is taken verbatim, unless its text is restated**, from
every file and in every environment. -/
theorem tag_verbatim (files : Files) (path : String) : TagVerbatim Restated files path where
  verbatim {file environment s c} hfile hgives hreads husable hkept := by
    have hreads := reads_rendered hgives hreads
    rw [rendered_eq_iff.mpr hkept] at hreads
    exact ((outcome_load hfile rfl).ok_iff _).mpr ⟨hreads, usable_tagged husable⟩
  lost {file environment s c} hfile hgives hreads hlost := by
    have houtcome : Outcome (effective file environment).get? (load files environment path) :=
      outcome_load hfile rfl
    have hreads := reads_rendered hgives hreads
    refine ⟨fun heq => rendered_eq_iff.mp heq hlost,
      fun husable => (houtcome.ok_iff _).mpr ⟨hreads, usable_tagged husable⟩,
      fun hunusable => (houtcome.invalidValue_iff _).mpr ⟨_, hreads, rfl, hunusable⟩⟩
  inFile {file environment s c} hfile hleaves hreads husable := by
    obtain ⟨found, -, hread⟩ := Option.bind_eq_some_iff.mp hfile
    obtain ⟨htable, hsound⟩ := readFile?_distinct hread
    have hmerged := effective_of_alone (by decide) htable hsound hleaves.distinct hleaves.alone
    rw [Config.given, hleaves.text, hleaves.inFile] at hmerged
    cases hvalue : (effective file environment).get? "consumer_tag" with
    | none =>
      rw [hvalue] at hmerged
      cases hmerged
    | some v =>
      rw [hvalue] at hmerged
      cases hmerged with
      | some halike =>
        have htagged : Reads (effective file environment).get? (tagged c s) :=
          ReadsOtherwise.with_tag hreads hvalue halike.toOptionalText?
        exact ((outcome_load hfile rfl).ok_iff _).mpr ⟨htagged, usable_tagged husable⟩

/-- A file that gives nothing. -/
def bare : Files := [("consumer.toml", "".toUTF8)]

/-- A tag of digits, two of them zeros in front. -/
def numbered : Environment := [("RABBITMQ_CONSUMER_CONSUMER_TAG", "007")]

/-- **A tag of digits loses the zeros in front of it.** -/
theorem not_tagVerbatim : ¬ TagVerbatim (fun _ => False) bare "consumer.toml" := by
  intro h
  have hgives : numbered.GivesTag "007" := by
    refine ⟨by decide +kernel, by decide +kernel, ?_⟩
    unfold Alone
    decide +kernel
  have hreads : ReadsOtherwise (effective [] numbered).get? {} := by
    refine ⟨?_, ?_, ?_, ?_⟩ <;> exact takes_iff.mpr (by decide +kernel)
  have hload := h.verbatim (by decide +kernel) hgives hreads (by unfold Usable; decide +kernel)
    not_false
  have hsevens : load bare numbered "consumer.toml" = .ok (tagged {} "7") := by decide +kernel
  rw [hsevens] at hload
  exact absurd hload (by decide)

end MessageIntake.Config
