import MessageIntake.Error

/-!
# Acknowledgment modes

Who settles a delivery, and when: the consumer as it hands the delivery
over, the application, or a transaction.
-/

namespace MessageIntake

inductive AckMode where
  | auto
  | manual
  | transactional
  deriving DecidableEq, Repr

namespace AckMode

instance : Inhabited AckMode := ⟨manual⟩

def text : AckMode → String
  | auto => "auto"
  | manual => "manual"
  | transactional => "transactional"

/-- The mode of a name in small letters. -/
def ofName? : String → Option AckMode
  | "auto" => some auto
  | "manual" => some manual
  | "transactional" => some transactional
  | _ => none

/-- The mode that `s` names, the case of its seven-bit letters aside. -/
def ofText (s : String) : Result AckMode :=
  match ofName? s.toLower with
  | some mode => .ok mode
  | none => .error (.configInvalidValue "ack_mode" s "expected one of auto, manual, transactional")

def inspect : AckMode → String
  | auto => "Auto"
  | manual => "Manual"
  | transactional => "Transactional"

@[simp] theorem ofName?_text (mode : AckMode) : ofName? mode.text = some mode := by
  cases mode <;> rfl

/-- A name in small letters is read as one mode only. -/
theorem ofName?_eq_some_iff {s : String} {mode : AckMode} : ofName? s = some mode ↔ s = mode.text := by
  constructor
  · intro h
    unfold ofName? at h
    split at h <;> simp_all [text] <;> subst h <;> rfl
  · rintro rfl
    exact ofName?_text mode

end AckMode

end MessageIntake
