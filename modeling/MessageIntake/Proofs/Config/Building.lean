import MessageIntake.Proofs.Config.Loading
import Mathlib.Data.List.Induction

/-!
# Building a configuration

A configuration is built by setters, each of which writes one of four settings
and leaves the others alone (`valueFor_apply`). So a setting has the value that was
written to it last, or its default (`valueFor_foldl_apply`); setters of different
settings commute, and one that is overwritten might as well not be there.

Only what comes of all setters is looked at for its tag, and that by its bytes
(`last_writer_wins`).
-/

namespace MessageIntake.Config

/-! ## The settings -/

/-- One of the settings. -/
inductive Field where
  | ackMode
  | receiveTimeoutMillis
  | requeueOnFailure
  | consumerTag
  deriving DecidableEq, Repr

/-- The values of a setting. -/
@[reducible] def Field.Value : Field → Type
  | ackMode => AckMode
  | receiveTimeoutMillis => Int64
  | requeueOnFailure => Bool
  | consumerTag => Option String

/-- The value that a configuration has for a setting. -/
def valueFor (c : Config) : (f : Field) → f.Value
  | .ackMode => c.ackMode
  | .receiveTimeoutMillis => c.receiveTimeoutMillis
  | .requeueOnFailure => c.requeueOnFailure
  | .consumerTag => c.consumerTag

namespace Setter

/-- The setting that a setter is for. -/
def field : Setter → Field
  | .ackMode _ => .ackMode
  | .receiveTimeoutMillis _ => .receiveTimeoutMillis
  | .requeueOnFailure _ => .requeueOnFailure
  | .consumerTag _ => .consumerTag

/-- The value that a setter writes to a setting, if it is the one for it. -/
def written? : Setter → (f : Field) → Option f.Value
  | .ackMode mode, .ackMode => some mode
  | .receiveTimeoutMillis millis, .receiveTimeoutMillis => some millis
  | .requeueOnFailure requeue, .requeueOnFailure => some requeue
  | .consumerTag tag, .consumerTag => some (some tag)
  | _, _ => none

end Setter

/-- The value that was written last to a setting, or its default. -/
def lastWritten (setters : List Setter) (f : Field) : f.Value :=
  (setters.filterMap (·.written? f)).getLast?.getD (({} : Config).valueFor f)

/-- The configuration that has for each setting what was written to it last. -/
def ofLastWritten (setters : List Setter) : Config where
  ackMode := lastWritten setters .ackMode
  receiveTimeoutMillis := lastWritten setters .receiveTimeoutMillis
  requeueOnFailure := lastWritten setters .requeueOnFailure
  consumerTag := lastWritten setters .consumerTag

section Settings

variable {c c' : Config} {x y : Setter} {f : Field}

/-- A configuration is what it has for its settings. -/
theorem eq_of_valueFor (h : ∀ f, c.valueFor f = c'.valueFor f) : c = c' := by
  obtain ⟨mode, millis, requeue, tag⟩ := c
  obtain ⟨mode', millis', requeue', tag'⟩ := c'
  obtain rfl : mode = mode' := h .ackMode
  obtain rfl : millis = millis' := h .receiveTimeoutMillis
  obtain rfl : requeue = requeue' := h .requeueOnFailure
  obtain rfl : tag = tag' := h .consumerTag
  rfl

@[simp] theorem valueFor_ofLastWritten (setters : List Setter) (f : Field) :
    (ofLastWritten setters).valueFor f = lastWritten setters f := by
  cases f <;> rfl

/-- **A setter writes its own setting and no other.** -/
theorem valueFor_apply (c : Config) (x : Setter) (f : Field) :
    (c.apply x).valueFor f = (x.written? f).getD (c.valueFor f) := by
  cases x <;> cases f <;> rfl

theorem isSome_written?_iff : (x.written? f).isSome ↔ x.field = f := by
  cases x <;> cases f <;> simp [Setter.written?, Setter.field]

theorem written?_eq_none (h : x.field ≠ f) : x.written? f = none := by
  rwa [← Option.not_isSome_iff_eq_none, isSome_written?_iff]

/-- **The last writer wins.** -/
theorem valueFor_foldl_apply (c : Config) (setters : List Setter) (f : Field) :
    (setters.foldl apply c).valueFor f =
      (setters.filterMap (·.written? f)).getLast?.getD (c.valueFor f) := by
  -- induction from the last setter, which decides if it is one for the setting
  induction setters using List.reverseRecOn with
  | nil => rfl
  | append_singleton setters x ih =>
    rw [List.foldl_append, List.foldl_cons, List.foldl_nil, valueFor_apply, ih,
      List.filterMap_append]
    cases h : x.written? f <;> simp [h]

theorem buildUnchecked_eq (setters : List Setter) :
    buildUnchecked setters = ofLastWritten setters := by
  refine eq_of_valueFor fun f => ?_
  rw [buildUnchecked, valueFor_foldl_apply, valueFor_ofLastWritten, lastWritten]

/-- Setters of different settings commute. -/
theorem apply_comm (c : Config) (h : x.field ≠ y.field) :
    (c.apply x).apply y = (c.apply y).apply x := by
  refine eq_of_valueFor fun f => ?_
  simp only [valueFor_apply]
  by_cases hx : x.field = f
  · rw [written?_eq_none (x := y) (hx ▸ h.symm), Option.getD_none, Option.getD_none]
  · rw [written?_eq_none hx, Option.getD_none, Option.getD_none]

/-- What a setter writes does not matter if its setting is written later. -/
theorem ofLastWritten_of_overwritten (before middle after : List Setter)
    (h : x.field = y.field) :
    ofLastWritten (before ++ x :: (middle ++ y :: after)) =
      ofLastWritten (before ++ (middle ++ y :: after)) := by
  refine eq_of_valueFor fun f => ?_
  simp only [valueFor_ofLastWritten, lastWritten, List.filterMap_append (l := before),
    List.filterMap_cons (a := x)]
  cases hx : x.written? f with
  | none => rfl
  | some v =>
    have hfield : x.field = f := isSome_written?_iff.mp (by rw [hx]; rfl)
    obtain ⟨w, hw⟩ := Option.isSome_iff_exists.mp (isSome_written?_iff.mpr (h ▸ hfield))
    have hlater : (middle ++ y :: after).filterMap (·.written? f) ≠ [] := by simp [hw]
    rw [List.append_cons, List.getLast?_append_of_ne_nil _ hlater,
      List.getLast?_append_of_ne_nil _ hlater]

end Settings

/-! ## What is built -/

/-- Nothing but the last configuration has a say in what is built. -/
theorem build_congr {setters setters' : List Setter}
    (h : ofLastWritten setters = ofLastWritten setters') : build setters = build setters' := by
  unfold build
  rw [buildUnchecked_eq, buildUnchecked_eq, h]

/-- A configuration is built as it is, or refused for its tag. -/
theorem build_cases (setters : List Setter) :
    (build setters = .ok (ofLastWritten setters) ∧
        ∀ tag ∈ (ofLastWritten setters).consumerTag, Usable tag) ∨
      ∃ tag reason, (ofLastWritten setters).consumerTag = some tag ∧ ¬ Usable tag ∧
        build setters = .error (.configInvalidValue "consumer_tag" tag reason) := by
  unfold build
  rw [buildUnchecked_eq]
  dsimp only
  rcases validate_cases (ofLastWritten setters) with ⟨hvalid, husable⟩ |
    ⟨tag, reason, htag, hunusable, hinvalid⟩
  · exact .inl ⟨by rw [hvalid], husable⟩
  · exact .inr ⟨tag, reason, htag, hunusable, by rw [hinvalid]⟩

/-- **What it means that the last writer wins**, and that only what comes of
all setters is looked at. -/
structure LastWriterWins : Prop where
  /-- Every setting has what was written to it last, or its default. -/
  built (setters : List Setter) : buildUnchecked setters = ofLastWritten setters
  /-- The order of setters of different settings does not matter. -/
  commutes (before after : List Setter) {x y : Setter} : x.field ≠ y.field →
    buildUnchecked (before ++ x :: y :: after) = buildUnchecked (before ++ y :: x :: after) ∧
      build (before ++ x :: y :: after) = build (before ++ y :: x :: after)
  /-- A setter that is overwritten does not matter, whatever it wrote. -/
  overwritten (before middle after : List Setter) {x y : Setter} : x.field = y.field →
    buildUnchecked (before ++ x :: (middle ++ y :: after)) =
        buildUnchecked (before ++ (middle ++ y :: after)) ∧
      build (before ++ x :: (middle ++ y :: after)) = build (before ++ (middle ++ y :: after))
  /-- It is built if and only if there is no tag or the tag has 1 to 255
  bytes. -/
  ok_iff (setters : List Setter) (c : Config) : build setters = .ok c ↔
    c = ofLastWritten setters ∧ ∀ tag ∈ c.consumerTag, Usable tag
  /-- A tag that may not be used is refused, and the error says which. -/
  refused_iff (setters : List Setter) (tag : String) :
    (∃ reason, build setters = .error (.configInvalidValue "consumer_tag" tag reason)) ↔
      (ofLastWritten setters).consumerTag = some tag ∧ ¬ Usable tag
  /-- There is no other error. -/
  error (setters : List Setter) {e : Error} : build setters = .error e →
    ∃ tag reason, e = .configInvalidValue "consumer_tag" tag reason

/-- **The last writer wins.** -/
theorem last_writer_wins : LastWriterWins where
  built := buildUnchecked_eq
  commutes before after x y h := by
    have hbuilt : buildUnchecked (before ++ x :: y :: after) =
        buildUnchecked (before ++ y :: x :: after) := by
      simp only [buildUnchecked, List.foldl_append, List.foldl_cons, apply_comm _ h]
    refine ⟨hbuilt, build_congr ?_⟩
    rw [← buildUnchecked_eq, hbuilt, buildUnchecked_eq]
  overwritten before middle after x y h := by
    have hlast := ofLastWritten_of_overwritten before middle after h
    exact ⟨by rw [buildUnchecked_eq, hlast, buildUnchecked_eq], build_congr hlast⟩
  ok_iff setters c := by
    rcases build_cases setters with ⟨hok, husable⟩ | ⟨tag, reason, htag, hunusable, herror⟩
    · rw [hok, Except.ok.injEq, eq_comm]
      exact ⟨fun h => ⟨h, h ▸ husable⟩, And.left⟩
    · rw [herror]
      refine ⟨nofun, ?_⟩
      rintro ⟨rfl, husable⟩
      exact absurd (husable tag htag) hunusable
  refused_iff setters tag := by
    rcases build_cases setters with ⟨hok, husable⟩ | ⟨tag', reason, htag, hunusable, herror⟩
    · rw [hok]
      exact ⟨nofun, fun ⟨htag, hunusable⟩ => absurd (husable tag htag) hunusable⟩
    · rw [herror]
      constructor
      · rintro ⟨_, ⟨⟩⟩
        exact ⟨htag, hunusable⟩
      · rintro ⟨htag', -⟩
        obtain rfl := Option.some.inj (htag.symm.trans htag')
        exact ⟨reason, rfl⟩
  error setters e h := by
    rcases build_cases setters with ⟨hok, -⟩ | ⟨tag, reason, -, -, herror⟩
    · rw [hok] at h
      cases h
    · rw [herror] at h
      cases h
      exact ⟨tag, reason, rfl⟩

/-- Bytes are counted, not characters: an empty tag is mended by one of 255
bytes in 128 characters, and spoilt again by one of 256 bytes in as many. -/
example :
    let tag (last : Char) := String.ofList (List.replicate 127 'é' ++ [last])
    build [.consumerTag "", .requeueOnFailure false, .consumerTag (tag 'e')] =
        .ok { requeueOnFailure := false, consumerTag := some (tag 'e') } ∧
      build [.consumerTag (tag 'e'), .consumerTag (tag 'é')] =
        .error (.configInvalidValue "consumer_tag" (tag 'é') "must be at most 255 bytes") := by
  decide +kernel

end MessageIntake.Config
