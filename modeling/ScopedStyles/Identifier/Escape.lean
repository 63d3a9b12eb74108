import ScopedStyles.Identifier.Basic

/-!
Escapes in identifiers. A backslash makes the next character part of the name; before hexadecimal
digits it names a code point, and one white space after the digits belongs to the escape.
-/

namespace ScopedStyles.Identifier

open Text

def replacement : Char := '\uFFFD'

structure EscapeReading where
  spelling : List Char
  value : Char
  rest : List Char
deriving DecidableEq, Repr

/-- The white space that ends a hexadecimal escape: one character, a line break of two counting
as one. -/
def terminatorLength : List Char → Nat
  | '\r' :: '\n' :: _ => 2
  | character :: _ =>
    if character = ' ' || character = '\t' || character = '\n' || character = '\r' ||
        character = '\x0c' then 1 else 0
  | [] => 0

def hexDigits (text : List Char) : List Char :=
  (text.take 6).takeWhile isHexDigit

/-- The character with the code that the digits spell; zero and codes without a character give
the replacement character. -/
def decodeHex (digits : List Char) : Char :=
  let code := digits.foldl (fun code digit => 16 * code + hexValue digit) 0
  if code ≠ 0 ∧ code.isValidChar then Char.ofNat code else replacement

def readEscape (text : List Char) : EscapeReading :=
  let digits := hexDigits text
  if digits.isEmpty then
    match text with
    | [] => ⟨[], replacement, []⟩
    | character :: rest => ⟨[character], character, rest⟩
  else
    let length := digits.length + terminatorLength (text.drop digits.length)
    ⟨text.take length, decodeHex digits, text.drop length⟩

theorem spelling_append_rest_readEscape (text : List Char) :
    (readEscape text).spelling ++ (readEscape text).rest = text := by
  unfold readEscape
  dsimp only
  split
  · split <;> rfl
  · exact List.take_append_drop _ _

theorem length_rest_readEscape_le (text : List Char) :
    (readEscape text).rest.length ≤ text.length := by
  have whole := congrArg List.length (spelling_append_rest_readEscape text)
  rw [List.length_append] at whole
  omega

def decode : List Char → List Char
  | [] => []
  | character :: rest =>
    if character = '\\' then
      (readEscape rest).value :: decode (readEscape rest).rest
    else character :: decode rest
termination_by text => text.length
decreasing_by
  · exact Nat.lt_succ_of_le (length_rest_readEscape_le rest)
  · exact Nat.lt_succ_self _

def hexText (code : Nat) : List Char :=
  Nat.toDigits 16 code

/-- Spell one character of a name; `position` counts from the name's start and `lone` says that
nothing else is in it. A control character, or a digit where an identifier must not have one, is
written by its code. -/
def encodeCharacter (position : Nat) (afterDash lone : Bool) (character : Char) : List Char :=
  let leadingDigit := character.isDigit && (position == 0 || (position == 1 && afterDash))
  if character = '\x00' then [replacement]
  else if character.toNat < 32 || character.toNat == 127 || leadingDigit then
    '\\' :: hexText character.toNat ++ [' ']
  else if character = '-' && position == 0 && lone then ['\\', '-']
  else if isCharacter character then [character]
  else ['\\', character]

def encode (name : List Char) : List Char :=
  name.zipIdx.flatMap fun (character, position) =>
    encodeCharacter position (name.head? == some '-') (name.length == 1) character

end Identifier

def unescapeIdentifier (spelling : String) : String :=
  String.ofList (Identifier.decode spelling.toList)

def escapeIdentifier (name : String) : String :=
  String.ofList (Identifier.encode name.toList)

example : unescapeIdentifier "\\31\r\nx" = "1x" := by decide +kernel
example : unescapeIdentifier "\\31 x" = "1x" := by decide +kernel
example : escapeIdentifier "-2a" = "-\\32 a" := by decide
example : escapeIdentifier "a:b" = "a\\:b" := by decide

end ScopedStyles
