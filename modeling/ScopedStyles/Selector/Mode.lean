import ScopedStyles.Text.Character

/-!
Scoping modes: how the names of a selector, of a block or of a whole file are treated unless a
wrapper or a switch says otherwise.
-/

namespace ScopedStyles

inductive Mode where
  | globally
  | locally
  | globalBlock
  | localBlock
  /-- Local, and every selector must contain a local name. -/
  | purely
deriving DecidableEq, Repr

namespace Mode

def isLocal : Mode → Bool
  | .locally | .localBlock | .purely => true
  | .globally | .globalBlock => false

def isBlock : Mode → Bool
  | .globalBlock | .localBlock => true
  | _ => false

def switched (isGlobal : Bool) : Mode :=
  if isGlobal then .globally else .locally

/-- The mode of the block behind a selector that is nothing but `:global` or `:local`. -/
def ofBlockSelector? (selector : String) : Option Mode :=
  let trimmed := Text.lowerAscii (Text.trim selector)
  if trimmed = ":global" then some .globalBlock
  else if trimmed = ":local" then some .localBlock
  else none

example : ofBlockSelector? " :Global " = some .globalBlock := by decide +kernel
example : ofBlockSelector? ":global(.a)" = none := by decide +kernel

end Mode

end ScopedStyles
