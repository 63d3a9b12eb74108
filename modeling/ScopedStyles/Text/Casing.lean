import ScopedStyles.Text.Character
import ScopedStyles.Text.CaseShift

/-!
Full case conversion. A character may become several, and a capital sigma becomes the final form
at the end of a word.
-/

namespace ScopedStyles.Text

def caseImage (expansions : List (Nat × List Nat)) (shifts : List CaseShift) (character : Char) :
    List Char :=
  match expansions.lookup character.toNat with
  | some codes => codes.map Char.ofNat
  | none =>
    match shifts.findSome? (·.imageOf? character.toNat) with
    | some code => [Char.ofNat code]
    | none => [character]

def lowercaseCharacter (character : Char) : List Char :=
  if isWide character then caseImage CaseExpansion.toLowercase CaseShift.toLowercase character
  else [character.toLower]

def uppercaseCharacter (character : Char) : List Char :=
  if isWide character then caseImage CaseExpansion.toUppercase CaseShift.toUppercase character
  else [character.toUpper]

example : uppercaseCharacter 'ß' = ['S', 'S'] := by decide +kernel
example : lowercaseCharacter 'É' = ['é'] := by decide +kernel

/-! A sigma ends its word when, ignoring characters that do not count, a cased letter stands
before it and none stands after it. -/

def isCased (character : Char) : Bool :=
  inRanges Property.cased character

def isCaseIgnorable (character : Char) : Bool :=
  inRanges Property.caseIgnorable character

def startsCased (text : List Char) : Bool :=
  ((text.dropWhile isCaseIgnorable).head?.map isCased).getD false

/-- Lowercase `text`; `before` holds the characters already passed, nearest first. -/
def lowercaseAfter (before : List Char) : List Char → List Char
  | [] => []
  | character :: rest =>
    let image :=
      if character = 'Σ' then
        if startsCased before && !startsCased rest then ['ς'] else ['σ']
      else lowercaseCharacter character
    image ++ lowercaseAfter (character :: before) rest

def lowercase (text : List Char) : List Char :=
  lowercaseAfter [] text

def uppercase (text : List Char) : List Char :=
  text.flatMap uppercaseCharacter

example : lowercase ['Α', 'Σ'] = ['α', 'ς'] := by decide +kernel
example : lowercase ['Σ', 'Α'] = ['σ', 'α'] := by decide +kernel

end ScopedStyles.Text
