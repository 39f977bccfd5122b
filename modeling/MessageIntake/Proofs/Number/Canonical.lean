import MessageIntake.Number.Literal
import Mathlib.Algebra.Group.Nat.Defs
import Mathlib.Data.List.Induction
import Mathlib.Data.List.TakeWhile

/-!
# The way a whole number is written

Many texts stand for one whole number: a plus, zeros in front, the minus
of zero. Only one of them is what the number is written as. A text that
is a number is written back as it was exactly if it is canonical
(`toString_eq_iff_canonical`).
-/

namespace MessageIntake.Number

open Text (Reader)

/-- Digits without a zero in front, or a single zero. -/
def Trimmed (digits : List Char) : Prop := digits = ['0'] ∨ digits.head? ≠ some '0'

/-- The text that a whole number is written as: trimmed digits, after a
minus if the number is negative. -/
def Canonical (text : List Char) : Prop :=
  text.head? ≠ some '+' ∧ Trimmed text ∧ ∀ digits, text = '-' :: digits → digits.head? ≠ some '0'

variable {digits : List Char} {s : String} {n : Int}

/-! ## Digits -/

theorem decimalValue_concat (digits : List Char) (c : Char) :
    decimalValue (digits ++ [c]) = 10 * decimalValue digits + (c.toNat - '0'.toNat) := by
  simp [decimalValue]

theorem toNat_of_isDigit {c : Char} (h : c.isDigit) : 48 ≤ c.toNat ∧ c.toNat ≤ 57 := by
  simp only [Char.isDigit, Bool.and_eq_true, decide_eq_true_eq, ge_iff_le,
    UInt32.le_iff_toNat_le] at h
  exact h

theorem digit_lt {c : Char} (h : c.isDigit) : c.toNat - '0'.toNat < 10 := by
  have hc := toNat_of_isDigit h
  have hzero : '0'.toNat = 48 := rfl
  omega

theorem digitChar_of_isDigit {c : Char} (h : c.isDigit) :
    Nat.digitChar (c.toNat - '0'.toNat) = c := by
  have hc := toNat_of_isDigit h
  have hvalue := Nat.toNat_digitChar_of_lt_ten (digit_lt h)
  have hzero : '0'.toNat = 48 := rfl
  apply Char.toNat_inj.mp
  omega

theorem decimalValue_lt (h : ∀ c ∈ digits, c.isDigit) : decimalValue digits < 10 ^ digits.length := by
  induction digits using List.reverseRecOn with
  | nil => decide
  | append_singleton earlier c ih =>
    rw [List.forall_mem_append] at h
    have hc := digit_lt (h.2 c List.mem_cons_self)
    have hearlier := ih h.1
    rw [decimalValue_concat, List.length_append, List.length_singleton, Nat.pow_succ]
    omega

/-- Trimmed digits are those of their number. -/
theorem toDigits_of_trimmed (hne : digits ≠ []) (h : ∀ c ∈ digits, c.isDigit)
    (htrimmed : Trimmed digits) : Nat.toDigits 10 (decimalValue digits) = digits := by
  induction digits using List.reverseRecOn with
  | nil => exact absurd rfl hne
  | append_singleton earlier c ih =>
    rw [List.forall_mem_append] at h
    have hc := h.2 c List.mem_cons_self
    have hlast : Nat.toDigits 10 (c.toNat - '0'.toNat) = [c] := by
      rw [Nat.toDigits_of_lt_base (digit_lt hc), digitChar_of_isDigit hc]
    rw [decimalValue_concat]
    by_cases hearlier : earlier = []
    · subst hearlier
      simpa [decimalValue] using hlast
    · have hhead : earlier.head? ≠ some '0' := by
        rcases htrimmed with hzero | hhead
        · have hlength := congrArg List.length hzero
          simp [hearlier] at hlength
        · rwa [List.head?_append, Option.or_of_isSome (by simpa using hearlier)] at hhead
      have hdigits := ih hearlier h.1 (.inr hhead)
      -- the number before the last digit is not zero, for zero would be written
      have hpos : 0 < decimalValue earlier := by
        refine Nat.pos_of_ne_zero fun hzero => hhead ?_
        rw [← hdigits, hzero]
        rfl
      rw [← Nat.toDigits_append_toDigits (by decide) hpos (digit_lt hc), hdigits, hlast]

/-- Digits that are those of their number are trimmed. -/
theorem trimmed_of_toDigits (h : ∀ c ∈ digits, c.isDigit)
    (hdigits : Nat.toDigits 10 (decimalValue digits) = digits) : Trimmed digits := by
  rcases digits with _ | ⟨first, rest⟩
  · exact absurd hdigits Nat.toDigits_ne_nil
  · by_cases hzero : first = '0'
    · subst hzero
      have hvalue : decimalValue ('0' :: rest) = decimalValue rest := rfl
      rcases rest with _ | ⟨second, rest⟩
      · exact .inl rfl
      · -- the number has fewer digits without the zero
        have hlt := decimalValue_lt (List.forall_mem_cons.mp h).2
        have hlength := (Nat.length_toDigits_le_iff (by decide) (by simp)).mpr hlt
        rw [← hvalue, hdigits, List.length_cons] at hlength
        omega
    · exact .inr (by simpa using hzero)

theorem toDigits_eq_iff_trimmed (hne : digits ≠ []) (h : ∀ c ∈ digits, c.isDigit) :
    Nat.toDigits 10 (decimalValue digits) = digits ↔ Trimmed digits :=
  ⟨trimmed_of_toDigits h, toDigits_of_trimmed hne h⟩

/-! ## Texts -/

theorem read_pure {α : Type} (a : α) (text : List Char) : (pure a : Reader α) text = some (a, text) :=
  rfl

/-- A text is taken apart into a sign and the rest. -/
theorem sign_cases (text : List Char) :
    (∃ rest, text = '-' :: rest ∧ sign text = some (true, rest)) ∨
    (∃ rest, text = '+' :: rest ∧ sign text = some (false, rest)) ∨
    (text.head? ≠ some '-' ∧ text.head? ≠ some '+' ∧ sign text = some (false, text)) := by
  rcases text with _ | ⟨first, rest⟩
  · exact .inr (.inr ⟨by simp, by simp, rfl⟩)
  · by_cases hminus : first = '-'
    · subst hminus
      exact .inl ⟨rest, rfl, rfl⟩
    · by_cases hplus : first = '+'
      · subst hplus
        exact .inr (.inl ⟨rest, rfl, rfl⟩)
      · refine .inr (.inr ⟨by simpa using hminus, by simpa using hplus, ?_⟩)
        have hm : '-' ≠ first := Ne.symm hminus
        have hp : '+' ≠ first := Ne.symm hplus
        simp [sign, Reader.accept, bind, StateT.bind, read_pure, hm, hp]

theorem digits1_eq (text : List Char) : digits1 text =
    if (text.takeWhile Char.isDigit).isEmpty then none
    else some (text.takeWhile Char.isDigit, text.dropWhile Char.isDigit) := by
  simp only [digits1, digits, Reader.takeWhile, bind, StateT.bind, Option.bind_some]
  split <;> rfl

/-- A text that is a whole number is digits after a sign. -/
theorem of_whole (h : whole.readAll s = some n) : ∃ negative digits,
    sign s.toList = some (negative, digits) ∧ digits ≠ [] ∧ (∀ c ∈ digits, c.isDigit) ∧
      n = if negative then -(decimalValue digits : Int) else decimalValue digits := by
  obtain ⟨⟨negative, rest⟩, hsign⟩ : ∃ signed, sign s.toList = some signed := by
    rcases sign_cases s.toList with ⟨rest, -, h⟩ | ⟨rest, -, h⟩ | ⟨-, -, h⟩ <;> exact ⟨_, h⟩
  simp only [Reader.readAll, whole, bind, StateT.bind, hsign, Option.bind_some, digits1_eq] at h
  by_cases hempty : (rest.takeWhile Char.isDigit).isEmpty
  · simp [hempty] at h
  · simp only [hempty, Bool.false_eq_true, if_false, Option.bind_some, read_pure] at h
    split at h
    · rename_i value hvalue
      cases h
      rw [Option.some_inj, Prod.mk.injEq] at hvalue
      obtain ⟨hvalue, hrest⟩ := hvalue
      have hall : ∀ c ∈ rest, c.isDigit := List.dropWhile_eq_nil_iff.mp hrest
      have htake : rest.takeWhile Char.isDigit = rest := List.takeWhile_eq_self_iff.mpr hall
      rw [htake] at hvalue hempty
      exact ⟨negative, rest, hsign, by simpa using hempty, hall, hvalue.symm⟩
    · cases h

/-! ## Written back -/

/-- A whole number is written as its digits, after a minus if it is
negative. -/
theorem toList_toString (negative : Bool) (m : Nat) :
    (toString (if negative then -(m : Int) else (m : Int))).toList =
      if negative = true ∧ m ≠ 0 then '-' :: Nat.toDigits 10 m else Nat.toDigits 10 m := by
  rw [Int.toString_eq_repr, Int.repr_eq_if]
  cases negative with
  | false => simp
  | true =>
    by_cases hm : m = 0
    · simp [hm]
    · have hneg : ¬ (0 : Int) ≤ -(m : Int) := by omega
      simp [hm]

/-- A minus is written back only before trimmed digits of a number that is
not zero. -/
theorem negative_eq_iff (hne : digits ≠ []) (h : ∀ c ∈ digits, c.isDigit) :
    (if decimalValue digits ≠ 0 then '-' :: Nat.toDigits 10 (decimalValue digits)
      else Nat.toDigits 10 (decimalValue digits)) = '-' :: digits ↔ digits.head? ≠ some '0' := by
  by_cases hzero : decimalValue digits = 0
  · simp only [hzero, ne_eq, not_true_eq_false, if_false, Nat.toDigits_zero]
    refine ⟨fun heq => ?_, fun hhead => absurd ?_ hhead⟩
    · cases heq
    · rw [← toDigits_of_trimmed hne h (.inr hhead), hzero]
      rfl
  · rw [if_pos hzero, List.cons_inj_right, toDigits_eq_iff_trimmed hne h]
    refine ⟨fun htrimmed => ?_, .inr⟩
    rcases htrimmed with rfl | hhead
    · exact absurd rfl hzero
    · exact hhead

/-- **A text that is a whole number is written back as it was exactly if it
is canonical.** -/
theorem toString_eq_iff_canonical (h : whole.readAll s = some n) :
    toString n = s ↔ Canonical s.toList := by
  obtain ⟨negative, digits, hsign, hne, hdigits, rfl⟩ := of_whole h
  rw [← String.toList_inj, toList_toString]
  generalize s.toList = text at hsign ⊢
  rcases sign_cases text with ⟨rest, rfl, hrest⟩ | ⟨rest, rfl, hrest⟩ | ⟨hminus, hplus, hrest⟩ <;>
    rw [hrest] at hsign <;> cases hsign
  case inl =>
    have hcanonical : Canonical ('-' :: digits) ↔ digits.head? ≠ some '0' := by
      simp [Canonical, Trimmed]
    simpa [hcanonical] using negative_eq_iff hne hdigits
  case inr.inl =>
    -- a plus is never written
    simp only [Bool.false_eq_true, false_and, if_false]
    refine ⟨fun heq => ?_, fun hcanonical => absurd rfl hcanonical.1⟩
    have hplus : '+' ∈ Nat.toDigits 10 (decimalValue digits) := heq ▸ List.mem_cons_self
    have hdigit := Nat.isDigit_of_mem_toDigits (by decide) (by decide) hplus
    exact absurd hdigit (by decide)
  case inr.inr =>
    simp only [Bool.false_eq_true, false_and, if_false]
    rw [toDigits_eq_iff_trimmed hne hdigits]
    refine ⟨fun htrimmed => ⟨hplus, htrimmed, ?_⟩, fun hcanonical => hcanonical.2.1⟩
    rintro rest rfl
    exact absurd rfl hminus

end MessageIntake.Number
