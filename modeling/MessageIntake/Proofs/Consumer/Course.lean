import MessageIntake.Lifecycle
import MessageIntake.Proofs.Machine.Schedule

/-!
# The course of a lifecycle

A lifecycle is what the sections done on it have made of it, one after
another (`Course`). What it records can be read off them: the tag is that
of the one start, the reason that of the one loss, the broker was asked
by the one call that was granted to, and the consumer was ended once
(`Course.kept`). One assumption goes into this: the transport is not lost
again before the loss has ended the consumer.
-/

namespace MessageIntake.Lifecycle

/-- A section that a thread did, with its answer. -/
structure Step where
  thread : Nat
  part : Section
  answer : part.Answer

namespace Step

/-- The tag of a start that was in order. -/
def started? : Step → Option String
  | ⟨_, .start tag, .ok _⟩ => some tag
  | _ => none

/-- The reason of a loss that counts. -/
def lost? : Step → Option ShutdownReason
  | ⟨_, .loseTransport reason, true⟩ => some reason
  | _ => none

/-- Who may ask the broker to cancel, and with which tag. -/
def granted? : Step → Option (Nat × String)
  | ⟨i, .requestCancel, some tag⟩ => some (i, tag)
  | _ => none

/-- Who has ended the consumer: it was not canceled before. -/
def ended? : Step → Option Nat
  | ⟨i, .cancel, (state, _)⟩ => if state = .canceled then none else some i
  | _ => none

/-- Who is given the tag finds the consumer consuming, and nobody asked
before. -/
theorem granted?_run {l : Lifecycle} {part : Section} {i j : Nat} {tag : String}
    (h : granted? ⟨i, part, (l.run part).2⟩ = some (j, tag)) :
    i = j ∧ part = .requestCancel ∧ l.state = .consuming ∧ l.cancelRequested = false := by
  cases part with
  | requestCancel =>
    by_cases hgrant : l.state = .consuming ∧ ¬ l.cancelRequested
    · have hrun : (l.run .requestCancel).2 = l.consumerTag := by simp [run, hgrant]
      rw [hrun] at h
      cases htag : l.consumerTag with
      | none =>
        rw [htag] at h
        cases h
      | some tag' =>
        rw [htag] at h
        cases h
        exact ⟨rfl, rfl, hgrant.1, by simpa using hgrant.2⟩
    · have hrun : (l.run .requestCancel).2 = none := by simp only [run, hgrant, if_false]
      rw [hrun] at h
      cases h
  | start | loseTransport | cancel | look => cases h

end Step

/-- **The sections that have led to a lifecycle.** The transport is not
lost again while the first loss has yet to end the consumer. -/
inductive Course : List Step → Lifecycle → Prop
  | new : Course [] {}
  | next {steps : List Step} {l : Lifecycle} (i : Nat) (part : Section) :
    Course steps l → (∀ reason, part = .loseTransport reason → l.state ≠ .transportLost) →
    Course (steps ++ [⟨i, part, (l.run part).2⟩]) (l.run part).1

/-- **What goes on from a lifecycle**: the state does not go back and is
not left when it is final, and what is recorded stays. -/
structure Onward (l l' : Lifecycle) : Prop where
  rank : l.state.rank ≤ l'.state.rank
  canceled : l.state = .canceled → l'.state = .canceled
  tag : ∀ tag, l.consumerTag = some tag → l'.consumerTag = some tag
  reason : ∀ reason, l.shutdownReason = some reason → l'.shutdownReason = some reason

namespace Onward

theorem refl (l : Lifecycle) : Onward l l :=
  ⟨Nat.le_refl _, id, fun _ h => h, fun _ h => h⟩

theorem trans {l l' l'' : Lifecycle} (h : Onward l l') (h' : Onward l' l'') : Onward l l'' where
  rank := Nat.le_trans h.rank h'.rank
  canceled hl := h'.canceled (h.canceled hl)
  tag tag hl := h'.tag tag (h.tag tag hl)
  reason reason hl := h'.reason reason (h.reason reason hl)

end Onward

/-- **What a lifecycle keeps of its course.** -/
structure Kept (steps : List Step) (l : Lifecycle) : Prop where
  /-- A consumer that has not started has no tag, and one that consumes
  has one. -/
  created : l.state = .created → l.consumerTag = none ∧ l.cancelRequested = false
  consuming : l.state = .consuming → l.consumerTag.isSome
  unlost : l.state = .created ∨ l.state = .consuming → l.shutdownReason = none
  tag : steps.filterMap Step.started? = l.consumerTag.toList
  reason : steps.filterMap Step.lost? = l.shutdownReason.toList
  /-- The broker is asked with the recorded tag, and only once. -/
  granted : (steps.filterMap Step.granted?).map Prod.snd =
    if l.cancelRequested then l.consumerTag.toList else []
  ended : (steps.filterMap Step.ended?).length = if l.state = .canceled then 1 else 0

namespace Kept

variable {steps : List Step} {l : Lifecycle}

/-- A section that records nothing and leaves the lifecycle as it is. -/
theorem quiet (h : Kept steps l) {step : Step} (hstarted : step.started? = none)
    (hlost : step.lost? = none) (hgranted : step.granted? = none) (hended : step.ended? = none) :
    Kept (steps ++ [step]) l := by
  obtain ⟨hcreated, hconsuming, hunlost, htag, hreason, hasked, hover⟩ := h
  refine ⟨hcreated, hconsuming, hunlost, ?_, ?_, ?_, ?_⟩
  · simpa [filterMap_concat, hstarted] using htag
  · simpa [filterMap_concat, hlost] using hreason
  · simpa [filterMap_concat, hgranted] using hasked
  · simpa [filterMap_concat, hended] using hover

/-- A consumer that starts has no tag yet, and gets one. -/
theorem start (h : Kept steps l) (hstate : l.state = .created) (i : Nat) (tag : String) :
    Kept (steps ++ [⟨i, .start tag, .ok ()⟩])
        { l with state := .consuming, consumerTag := some tag } ∧
      Onward l { l with state := .consuming, consumerTag := some tag } := by
  obtain ⟨hnone, hnobody⟩ := h.created hstate
  have hreason := h.unlost (.inl hstate)
  refine ⟨⟨nofun, fun _ => rfl, fun _ => hreason, ?_, ?_, ?_, ?_⟩, ⟨?_, ?_, ?_, fun _ h => h⟩⟩
  · rw [filterMap_concat, h.tag, hnone]
    rfl
  · rw [filterMap_concat, h.reason]
    exact List.append_nil _
  · rw [filterMap_concat, List.map_append, h.granted, hnobody]
    rfl
  · rw [filterMap_concat, List.length_append, h.ended, hstate]
    rfl
  · rw [hstate]
    exact Nat.zero_le _
  · simp [hstate]
  · simp [hnone]

/-- A call that is granted to ask the broker gets the recorded tag. -/
theorem requestCancel (h : Kept steps l) (hstate : l.state = .consuming)
    (hnobody : l.cancelRequested = false) {tag : String} (htag : l.consumerTag = some tag)
    (i : Nat) :
    Kept (steps ++ [⟨i, .requestCancel, some tag⟩]) { l with cancelRequested := true } := by
  have hreason := h.unlost (.inr hstate)
  refine ⟨by simp [hstate], fun _ => by simp [htag], fun _ => hreason, ?_, ?_, ?_, ?_⟩
  · rw [filterMap_concat, h.tag]
    exact List.append_nil _
  · rw [filterMap_concat, h.reason]
    exact List.append_nil _
  · rw [filterMap_concat, List.map_append, h.granted, hnobody, htag]
    rfl
  · rw [filterMap_concat, List.length_append, h.ended]
    rfl

/-- A loss that counts is the first. -/
theorem loseTransport (h : Kept steps l) (hstate : l.state = .created ∨ l.state = .consuming)
    (i : Nat) (reason : ShutdownReason) :
    Kept (steps ++ [⟨i, .loseTransport reason, true⟩])
        { l with state := .transportLost, shutdownReason := some reason } ∧
      Onward l { l with state := .transportLost, shutdownReason := some reason } := by
  have hnone := h.unlost hstate
  have hlive : l.state ≠ .canceled := by
    rintro hcanceled
    simp [hcanceled] at hstate
  refine ⟨⟨nofun, nofun, by simp, ?_, ?_, ?_, ?_⟩, ⟨?_, ?_, fun _ h => h, ?_⟩⟩
  · rw [filterMap_concat, h.tag]
    exact List.append_nil _
  · rw [filterMap_concat, h.reason, hnone]
    rfl
  · rw [filterMap_concat, List.map_append, h.granted]
    exact List.append_nil _
  · rw [filterMap_concat, List.length_append, h.ended, if_neg hlive]
    rfl
  · rcases hstate with hstate | hstate <;> simp [hstate, ConsumerState.rank]
  · exact fun hcanceled => absurd hcanceled hlive
  · simp [hnone]

/-- The first to end the consumer is the only one. -/
theorem cancel (h : Kept steps l) (i : Nat) :
    Kept (steps ++ [⟨i, .cancel, (l.state, l.consumerTag)⟩]) { l with state := .canceled } := by
  refine ⟨nofun, nofun, by simp, ?_, ?_, ?_, ?_⟩
  · rw [filterMap_concat, h.tag]
    exact List.append_nil _
  · rw [filterMap_concat, h.reason]
    exact List.append_nil _
  · rw [filterMap_concat, List.map_append, h.granted]
    exact List.append_nil _
  · rw [filterMap_concat, List.length_append, h.ended]
    by_cases hcanceled : l.state = .canceled <;> simp [Step.ended?, hcanceled]

/-- **A section keeps what is kept, and goes on.** -/
theorem next (h : Kept steps l) (i : Nat) (part : Section)
    (hlose : ∀ reason, part = .loseTransport reason → l.state ≠ .transportLost) :
    Kept (steps ++ [⟨i, part, (l.run part).2⟩]) (l.run part).1 ∧ Onward l (l.run part).1 := by
  cases part with
  | start tag =>
    by_cases hstate : l.state = .created
    · have hrun : l.run (.start tag) =
          ({ l with state := .consuming, consumerTag := some tag }, .ok ()) := by
        simp [run, hstate]
      rw [hrun]
      exact h.start hstate i tag
    · simp only [run, hstate, if_false]
      exact ⟨h.quiet rfl rfl rfl rfl, .refl l⟩
  | requestCancel =>
    by_cases hgrant : l.state = .consuming ∧ ¬ l.cancelRequested
    · obtain ⟨tag, htag⟩ := Option.isSome_iff_exists.mp (h.consuming hgrant.1)
      have hrun : l.run .requestCancel = ({ l with cancelRequested := true }, some tag) := by
        simp [run, hgrant, htag]
      rw [hrun]
      exact ⟨h.requestCancel hgrant.1 (by simpa using hgrant.2) htag i,
        ⟨Nat.le_refl _, id, fun _ h => h, fun _ h => h⟩⟩
    · simp only [run, hgrant, if_false]
      exact ⟨h.quiet rfl rfl rfl rfl, .refl l⟩
  | loseTransport reason =>
    have hnot := hlose reason rfl
    cases hstate : l.state with
    | created | consuming =>
      have hrun : l.run (.loseTransport reason) =
          ({ l with state := .transportLost, shutdownReason := some reason }, true) := by
        simp [run, hstate, ConsumerState.isTerminal]
      rw [hrun]
      exact h.loseTransport (by simp [hstate]) i reason
    | transportLost => exact absurd hstate hnot
    | canceled =>
      have hrun : l.run (.loseTransport reason) = (l, false) := by
        simp [run, hstate, ConsumerState.isTerminal]
      rw [hrun]
      exact ⟨h.quiet rfl rfl rfl rfl, .refl l⟩
  | cancel =>
    refine ⟨h.cancel i, ⟨?_, fun _ => rfl, fun _ h => h, fun _ h => h⟩⟩
    exact state_run_le l .cancel
  | look => exact ⟨h.quiet rfl rfl rfl rfl, .refl l⟩

end Kept

/-- **What a lifecycle records, its course has given it.** -/
theorem Course.kept {steps : List Step} {l : Lifecycle} (h : Course steps l) : Kept steps l := by
  induction h with
  | new => exact ⟨fun _ => ⟨rfl, rfl⟩, nofun, fun _ => rfl, rfl, rfl, rfl, rfl⟩
  | next i part _ hlose ih => exact (ih.next i part hlose).1

end MessageIntake.Lifecycle
