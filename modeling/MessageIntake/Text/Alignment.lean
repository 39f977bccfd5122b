/-!
# Alignment

Text in a field of a given width, counted in characters. The fill goes
to the right, to the left, or to both sides with the smaller half on the
left; text that is as long as the field, or longer, stays as it is.

`length_align` says how long the result is, whichever the side.
-/

namespace MessageIntake.Text

/-- Where the text stands in its field. -/
inductive Alignment where
  | left
  | right
  | center
  deriving DecidableEq, Repr

/-- Fills `s` up to `width` characters. -/
def align (alignment : Alignment) (fill : Char) (width : Nat) (s : String) : String :=
  let missing := width - s.length
  let before := match alignment with
    | .left => 0
    | .right => missing
    | .center => missing / 2
  "".pushn fill before ++ s ++ "".pushn fill (missing - before)

/-- The first `count` characters. -/
def cut (count : Nat) (s : String) : String := String.ofList (s.toList.take count)

/-- A field is as wide as asked for, or as wide as its text. -/
theorem length_align (alignment : Alignment) (fill : Char) (width : Nat) (s : String) :
    (align alignment fill width s).length = max width s.length := by
  cases alignment <;> simp [align] <;> omega

end MessageIntake.Text
