/-!
Parts of a written expression. Each part knows how deep brackets, repetitions and lists stand in one
another inside it, so that an expression that goes too deep can be refused.
-/

namespace ScopedStyles.Pattern

structure Part (α : Type) where
  value : α
  depth : Nat
deriving DecidableEq, Repr

namespace Part

def single {α : Type} (value : α) : Part α :=
  ⟨value, 0⟩

def within {α : Type} (wrap : α → α) (part : Part α) : Part α :=
  ⟨wrap part.value, part.depth + 1⟩

def both {α : Type} (combine : α → α → α) (left right : Part α) : Part α :=
  ⟨combine left.value right.value, max left.depth right.depth + 1⟩

/-- Parts in a row, last one first. None are a neutral value, one stands for itself, and more share
a level. -/
def gather {α : Type} (neutral : α) (combine : α → α → α) : List (Part α) → Part α
  | [] => .single neutral
  | [only] => only
  | last :: others =>
    ⟨others.foldl (fun value part => combine part.value value) last.value,
      others.foldl (fun depth part => max depth part.depth) last.depth + 1⟩

example : (gather "" (· ++ ·) [.single "c", ⟨"b", 2⟩, .single "a"]) = ⟨"abc", 3⟩ := by decide

end Part

end ScopedStyles.Pattern
