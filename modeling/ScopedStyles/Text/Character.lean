import ScopedStyles.Text.Property

/-!
Character classes. Each one is decided by comparison for ASCII and by a table of Unicode ranges
for everything else, so that ASCII text never reaches a table. Letters, numbers and cases are those
of Unicode 17, while patterns and what is read like them go by Unicode 16.
-/

namespace ScopedStyles.Text

def isWide (character : Char) : Bool :=
  128 ≤ character.toNat

/-- White space: what is trimmed from the ends of a text and what separates words. -/
def isBlank (character : Char) : Bool :=
  character == ' ' || (9 ≤ character.toNat && character.toNat ≤ 13) ||
    (isWide character && inRanges Property.whiteSpace character)

def isDecimal (character : Char) : Bool :=
  character.isDigit ||
    (isWide character && inRanges Property.decimalNumber character &&
      !inRanges Property.addedWordCharacters character)

def isAlphabetic (character : Char) : Bool :=
  character.isAlpha || (isWide character && inRanges Property.alphabetic character)

def isAlphanumeric (character : Char) : Bool :=
  isAlphabetic character || character.isDigit ||
    (isWide character &&
      (inRanges Property.decimalNumber character ||
        inRanges Property.letterNumber character || inRanges Property.otherNumber character))

/-- Word characters of Unicode 16: letters, marks, decimal digits, connector punctuation and
joiners. -/
def isWordCharacter (character : Char) : Bool :=
  character.isAlphanum || character == '_' ||
    (isWide character && !inRanges Property.addedWordCharacters character &&
      (inRanges Property.alphabetic character || inRanges Property.mark character ||
        inRanges Property.decimalNumber character ||
        inRanges Property.connectorPunctuation character ||
        inRanges Property.joinControl character))

def isUppercase (character : Char) : Bool :=
  character.isUpper || (isWide character && inRanges Property.uppercase character)

def isLowercase (character : Char) : Bool :=
  character.isLower || (isWide character && inRanges Property.lowercase character)

def isHexDigit (character : Char) : Bool :=
  character.isDigit || ('a' ≤ character && character ≤ 'f') || ('A' ≤ character && character ≤ 'F')

def hexValue (character : Char) : Nat :=
  if character.isDigit then character.toNat - 48
  else if 'a' ≤ character then character.toNat - 87
  else character.toNat - 55

def isQuote (character : Char) : Bool :=
  character == '"' || character == '\''

example : isBlank '\u00a0' = true ∧ isBlank '\u200b' = false :=
  by decide +kernel
example : isAlphanumeric 'é' = true ∧ isAlphanumeric '-' = false :=
  by decide +kernel
example : isWordCharacter '_' = true ∧ isWordCharacter '²' = false :=
  by decide +kernel
example : isAlphanumeric '\ua7ce' = true ∧ isWordCharacter '\ua7ce' = false :=
  by decide +kernel

/-! ## Trimming -/

def trimCharacters (text : List Char) : List Char :=
  ((text.dropWhile isBlank).reverse.dropWhile isBlank).reverse

theorem length_dropWhile_le (test : Char → Bool) (text : List Char) :
    (text.dropWhile test).length ≤ text.length :=
  (List.dropWhile_suffix test).length_le

theorem length_trimCharacters_le (text : List Char) :
    (trimCharacters text).length ≤ text.length := by
  have front := length_dropWhile_le isBlank text
  have back := length_dropWhile_le isBlank (text.dropWhile isBlank).reverse
  simp only [trimCharacters, List.length_reverse] at *
  omega

def trim (text : String) : String :=
  String.ofList (trimCharacters text.toList)

@[simp] theorem toList_trim (text : String) :
    (trim text).toList = trimCharacters text.toList := by
  simp [trim]

def lowerAscii (text : String) : String :=
  String.ofList (text.toList.map Char.toLower)

example : lowerAscii "BTN-É" = "btn-É" := by decide

end ScopedStyles.Text
