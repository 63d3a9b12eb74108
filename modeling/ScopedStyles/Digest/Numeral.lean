/-!
Numbers in base 36 and base 16, with lowercase letters as digits.
-/

namespace ScopedStyles.Numeral

def digit (value : Nat) : Char :=
  if value < 10 then Char.ofNat (48 + value) else Char.ofNat (87 + value)

/-- The digits of a number, most significant first, before `behind`; zero has none. -/
def digits (base value : Nat) (behind : List Char) : List Char :=
  if 1 < base ∧ 0 < value then
    digits base (value / base) (digit (value % base) :: behind)
  else behind
termination_by value
decreasing_by
  rename_i more
  exact Nat.div_lt_self more.2 more.1

def base36 (value : Nat) : List Char :=
  if value = 0 then ['0'] else digits 36 value []

def hex : (length value : Nat) → List Char
  | 0, _ => []
  | length + 1, value => hex length (value / 16) ++ [digit (value % 16)]

example : base36 1295 = ['z', 'z'] ∧ base36 36 = ['1', '0'] := by decide +kernel
example : hex 4 255 = ['0', '0', 'f', 'f'] := by decide

end ScopedStyles.Numeral
