import ScopedStyles.Json.Text

/-!
The tokens of a JSON text.
-/

namespace ScopedStyles.Json

inductive Token where
  | openObject
  | closeObject
  | openList
  | closeList
  | colon
  | comma
  | null
  | boolean (value : Bool)
  | number
  /-- A quoted text, nothing if it spells a lone surrogate. -/
  | quoted (content : Option String)
deriving DecidableEq, Repr

namespace Token

def isSpace (character : Char) : Bool :=
  character == ' ' || character == '\t' || character == '\n' || character == '\r'

/-! ## Numbers -/

def behindDigits? (text : List Char) : Option (List Char) :=
  match text with
  | first :: rest => if first.isDigit then some (rest.dropWhile Char.isDigit) else none
  | [] => none

/-- What follows the whole part of a number; a zero stands alone. -/
def behindWhole? (text : List Char) : Option (List Char) :=
  match text with
  | '0' :: rest => some rest
  | _ => behindDigits? text

def behindDecimals? (text : List Char) : Option (List Char) :=
  match text with
  | '.' :: rest => behindDigits? rest
  | _ => some text

def behindExponent? (text : List Char) : Option (List Char) :=
  match text with
  | letter :: rest =>
    if letter == 'e' || letter == 'E' then
      match rest with
      | sign :: digits =>
        if sign == '+' || sign == '-' then behindDigits? digits else behindDigits? rest
      | [] => none
    else some text
  | [] => some []

def behindNumber? (text : List Char) : Option (List Char) :=
  let unsigned := if text.head? == some '-' then text.drop 1 else text
  ((behindWhole? unsigned).bind behindDecimals?).bind behindExponent?

/-! ## Tokens -/

def read? : List Char → Option (Token × List Char)
  | '{' :: rest => some (.openObject, rest)
  | '}' :: rest => some (.closeObject, rest)
  | '[' :: rest => some (.openList, rest)
  | ']' :: rest => some (.closeList, rest)
  | ':' :: rest => some (.colon, rest)
  | ',' :: rest => some (.comma, rest)
  | 'n' :: 'u' :: 'l' :: 'l' :: rest => some (.null, rest)
  | 't' :: 'r' :: 'u' :: 'e' :: rest => some (.boolean true, rest)
  | 'f' :: 'a' :: 'l' :: 's' :: 'e' :: rest => some (.boolean false, rest)
  | '"' :: rest =>
    (spanQuoted? rest).map fun (units, rest) =>
      (.quoted ((decodeUnits? units).map String.ofList), rest)
  | text => (behindNumber? text).map fun rest => (.number, rest)

def readAll? : (fuel : Nat) → List Char → Option (List Token)
  | 0, text => if text.all isSpace then some [] else none
  | fuel + 1, text =>
    match text.dropWhile isSpace with
    | [] => some []
    | text =>
      match read? text with
      | none => none
      | some (token, rest) => (readAll? fuel rest).map (token :: ·)

def ofText? (text : String) : Option (List Token) :=
  readAll? text.length text.toList

example : ofText? "[1, -0.5e+3]" =
    some [.openList, .number, .comma, .number, .closeList] := by decide +kernel
example : ofText? "01" = some [.number, .number] ∧ ofText? "1." = none := by decide +kernel

end Token

end ScopedStyles.Json
