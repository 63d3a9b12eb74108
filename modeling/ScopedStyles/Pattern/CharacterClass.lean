import ScopedStyles.Text.Character

/-!
Sets of characters, built from ranges and from the classes of Unicode by complement and by the
usual operations on two sets.
-/

namespace ScopedStyles.Pattern

open Text

inductive SetOperation where
  | union
  | intersection
  | difference
  | symmetricDifference
deriving DecidableEq, Repr

def SetOperation.holds : SetOperation → Bool → Bool → Bool
  | .union, left, right => left || right
  | .intersection, left, right => left && right
  | .difference, left, right => left && !right
  | .symmetricDifference, left, right => left != right

inductive CharacterClass where
  | nothing
  | range (first last : Char)
  | decimals
  | wordCharacters
  | blanks
  | complement (characters : CharacterClass)
  | combined (operation : SetOperation) (left right : CharacterClass)
deriving DecidableEq, Repr

namespace CharacterClass

def holds : CharacterClass → Char → Bool
  | .nothing, _ => false
  | .range first last, character => first ≤ character && character ≤ last
  | .decimals, character => isDecimal character
  | .wordCharacters, character => isWordCharacter character
  | .blanks, character => isBlank character
  | .complement characters, character => !characters.holds character
  | .combined operation left right, character =>
    operation.holds (left.holds character) (right.holds character)

def ofCharacter (character : Char) : CharacterClass :=
  .range character character

def anything : CharacterClass :=
  .complement (.ofCharacter '\n')

def ofRanges (ranges : List (Char × Char)) : CharacterClass :=
  ranges.foldr (fun (first, last) others => .combined .union (.range first last) others) .nothing

/-- Every member is known to be in ASCII. -/
def isNarrow : CharacterClass → Bool
  | .nothing => true
  | .range _ last => !isWide last
  | .decimals | .wordCharacters | .blanks | .complement _ => false
  | .combined .intersection left right => left.isNarrow || right.isNarrow
  | .combined .difference left _ => left.isNarrow
  | .combined _ left right => left.isNarrow && right.isNarrow

/-- The steps that it takes to read one character: a step for each byte of a single one, and for a
set as many as its widest shape of bytes needs. -/
def size (characters : CharacterClass) : Nat :=
  match characters with
  | .range first last =>
    if first = last then first.utf8Size else if isWide last then 31 else 2
  | _ => if characters.isNarrow then 2 else 31

def named? (name : String) : Option CharacterClass :=
  match name with
  | "alnum" => some (ofRanges [('0', '9'), ('A', 'Z'), ('a', 'z')])
  | "alpha" => some (ofRanges [('A', 'Z'), ('a', 'z')])
  | "ascii" => some (ofRanges [('\x00', '\x7f')])
  | "blank" => some (ofRanges [('\t', '\t'), (' ', ' ')])
  | "cntrl" => some (ofRanges [('\x00', '\x1f'), ('\x7f', '\x7f')])
  | "digit" => some (ofRanges [('0', '9')])
  | "graph" => some (ofRanges [('!', '~')])
  | "lower" => some (ofRanges [('a', 'z')])
  | "print" => some (ofRanges [(' ', '~')])
  | "punct" => some (ofRanges [('!', '/'), (':', '@'), ('[', '\x60'), ('{', '~')])
  | "space" => some (ofRanges [('\t', '\r'), (' ', ' ')])
  | "upper" => some (ofRanges [('A', 'Z')])
  | "word" => some (ofRanges [('0', '9'), ('A', 'Z'), ('_', '_'), ('a', 'z')])
  | "xdigit" => some (ofRanges [('0', '9'), ('A', 'F'), ('a', 'f')])
  | _ => none

example : (named? "punct").map (·.holds '-') = some true := by decide +kernel

end CharacterClass

end ScopedStyles.Pattern
