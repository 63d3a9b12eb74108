import ScopedStyles.Pattern.Basic

/-!
What a character behind a backslash stands for in a written pattern: a class, an anchor or a single
character.
-/

namespace ScopedStyles.Pattern

open Text

def classEscape? (character : Char) : Option CharacterClass :=
  match character with
  | 'd' => some .decimals
  | 'D' => some (.complement .decimals)
  | 'w' => some .wordCharacters
  | 'W' => some (.complement .wordCharacters)
  | 's' => some .blanks
  | 'S' => some (.complement .blanks)
  | _ => none

/-- The character that an escaped one stands for; letters and digits have to have a meaning. -/
def literalEscape? (character : Char) : Option Char :=
  match character with
  | 'n' => some '\n'
  | 't' => some '\t'
  | 'r' => some '\r'
  | 'f' => some '\x0c'
  | 'v' => some '\x0b'
  | 'a' => some '\x07'
  | _ =>
    if character.isAlphanum || isWide character || character == '<' || character == '>' then none
    else some character

def anchorEscape? (character : Char) : Option Anchor :=
  match character with
  | 'A' => some .start
  | 'z' => some .ending
  | 'b' => some (.wordEdge false)
  | 'B' => some (.wordEdge true)
  | _ => none

def escapeItem? (character : Char) : Option Pattern :=
  match classEscape? character, anchorEscape? character, literalEscape? character with
  | some characters, _, _ => some (.character characters)
  | none, some condition, _ => some (.anchor condition)
  | none, none, some literal => some (.character (.ofCharacter literal))
  | none, none, none => none

example : escapeItem? '.' = some (.character (.ofCharacter '.')) ∧ escapeItem? 'q' = none := by
  decide +kernel

end ScopedStyles.Pattern
