import ScopedStyles.Text.Character

/-!
Plain identifiers: letters, digits, dashes, low lines and everything outside ASCII, not beginning
with a digit, a dash and a digit, or a lone dash.
-/

namespace ScopedStyles.Identifier

open Text

def isCharacter (character : Char) : Bool :=
  character.isAlphanum || character == '-' || character == '_' || isWide character

def isStart (character : Char) : Bool :=
  isCharacter character && !character.isDigit

/-- Whether the characters spell a plain identifier, one without escapes. -/
def isPlain : List Char → Bool
  | [] => false
  | '-' :: rest =>
    match rest with
    | [] => false
    | second :: more => isStart second && more.all isCharacter
  | first :: rest => isStart first && rest.all isCharacter

end Identifier

def isIdentifier (text : String) : Bool :=
  Identifier.isPlain text.toList

example : isIdentifier "-bar" = true ∧ isIdentifier "--bar" = true := by decide
example : isIdentifier "-1" = false ∧ isIdentifier "-" = false ∧ isIdentifier "" = false := by
  decide

end ScopedStyles
