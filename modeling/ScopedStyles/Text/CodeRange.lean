/-!
Sets of characters given by ranges of code points.
-/

namespace ScopedStyles.Text

/-- The code points `first`, `first + step`, … that do not exceed `last`. -/
structure CodeRange where
  first : Nat
  last : Nat
  step : Nat
deriving DecidableEq, Repr

namespace CodeRange

def contains (range : CodeRange) (code : Nat) : Bool :=
  range.first ≤ code && code ≤ range.last && (code - range.first) % range.step == 0

example : (CodeRange.mk 256 260 2).contains 258 = true := rfl
example : (CodeRange.mk 256 260 2).contains 259 = false := rfl

end CodeRange

def inRanges (ranges : List CodeRange) (character : Char) : Bool :=
  ranges.any (·.contains character.toNat)

end ScopedStyles.Text
