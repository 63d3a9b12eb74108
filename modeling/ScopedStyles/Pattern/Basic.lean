import ScopedStyles.Pattern.CharacterClass

/-!
Regular expressions over texts. Matching marks the places of a text that can be reached, so it needs
no backtracking.
-/

namespace ScopedStyles

open Text

namespace Pattern

inductive Anchor where
  | start
  | ending
  | wordEdge (isNegated : Bool)
deriving DecidableEq, Repr

def isInWord (character : Option Char) : Bool :=
  (character.map isWordCharacter).getD false

def Anchor.holds (anchor : Anchor) (before behind : Option Char) : Bool :=
  match anchor with
  | .start => before.isNone
  | .ending => behind.isNone
  | .wordEdge isNegated => (isInWord before != isInWord behind) != isNegated

end Pattern

inductive Pattern where
  | empty
  | character (characters : Pattern.CharacterClass)
  | anchor (condition : Pattern.Anchor)
  | group (body : Pattern)
  | sequence (first second : Pattern)
  | choice (first second : Pattern)
  /-- At least `least` times, and at most as often as said, if it is said. -/
  | repeated (body : Pattern) (least : Nat) (most : Option Nat)
deriving DecidableEq, Repr

namespace Pattern

/-! ## Matching

A text has a place before each of its characters and one at its end. A set of places is a list with
one mark for each place. -/

def places (text : List Char) : List (Option Char × Option Char) :=
  List.zip (none :: text.map some) (text.map some ++ [none])

def union (left right : List Bool) : List Bool :=
  List.zipWith (· || ·) left right

/-- Apply a function a number of times, which is over once it changes nothing. -/
def iterate (change : List Bool → List Bool) : Nat → List Bool → List Bool
  | 0, marks => marks
  | count + 1, marks =>
    let next := change marks
    if next = marks then marks else iterate change count next

/-- The places reached from some place of a set by matching a pattern. -/
def advance (text : List Char) : Pattern → List Bool → List Bool
  | .empty, marks => marks
  | .character characters, marks =>
    false :: List.zipWith (fun found mark => mark && characters.holds found) text marks
  | .anchor condition, marks =>
    List.zipWith (fun (before, behind) mark => mark && condition.holds before behind)
      (places text) marks
  | .group body, marks => body.advance text marks
  | .sequence first second, marks => second.advance text (first.advance text marks)
  | .choice first second, marks => union (first.advance text marks) (second.advance text marks)
  | .repeated body least most, marks =>
    let required := iterate (body.advance text) least marks
    let further := match most with
      | some most => most - least
      | none => text.length + 1
    iterate (fun marks => union marks (body.advance text marks)) further required

def isFoundIn (pattern : Pattern) (text : String) : Bool :=
  let characters := text.toList
  (pattern.advance characters (true :: characters.map fun _ => true)).any id

/-! ## Size -/

def isWidthless : Pattern → Bool
  | .empty | .anchor _ => true
  | .character _ => false
  | .group body => body.isWidthless
  | .sequence first second | .choice first second => first.isWidthless && second.isWidthless
  | .repeated body _ most => most == some 0 || body.isWidthless

/-- A part that is repeated. Empty matches are not worth repeating more than once, and what occurs
no time is empty. -/
def repetition (body : Pattern) (least : Nat) (most : Option Nat) : Pattern :=
  if most = some 0 then .empty
  else if body.isWidthless then .repeated body (min least 1) (some 1)
  else .repeated body least most

def size : Pattern → Nat
  | .empty | .anchor _ => 1
  | .character characters => characters.size
  | .group body => body.size + 2
  | .sequence first second => first.size + second.size
  | .choice first second => first.size + second.size + 2
  | .repeated body least none => max least 1 * body.size + 1
  | .repeated body least (some most) =>
    least * body.size + (most - least) * (body.size + 1) + 1

end Pattern

end ScopedStyles
