import ScopedStyles.Text.Character

/-!
Texts in JSON: how a text is written between quotes, and what a quoted text stands for. Characters
outside the basic plane may be written as a pair of surrogates; a surrogate without its partner
stands for no character.
-/

namespace ScopedStyles.Json

open Text

/-! ## Writing -/

def hexDigit (value : Nat) : Char :=
  if value < 10 then Char.ofNat (48 + value) else Char.ofNat (87 + value)

def encodeCharacter (character : Char) : List Char :=
  match character with
  | '"' => ['\\', '"']
  | '\\' => ['\\', '\\']
  | '\x08' => ['\\', 'b']
  | '\x0c' => ['\\', 'f']
  | '\n' => ['\\', 'n']
  | '\r' => ['\\', 'r']
  | '\t' => ['\\', 't']
  | _ =>
    if character.toNat < 32 then
      ['\\', 'u', '0', '0', hexDigit (character.toNat / 16), hexDigit (character.toNat % 16)]
    else [character]

def quote (text : String) : String :=
  String.ofList ('"' :: text.toList.flatMap encodeCharacter ++ ['"'])

example : quote "a\"\x01" = "\"a\\\"\\u0001\"" := by decide +kernel

/-! ## Reading -/

inductive Unit16 where
  | character (character : Char)
  | code (number : Nat)
deriving DecidableEq, Repr

def simpleEscape? : Char → Option Char
  | '"' => some '"'
  | '\\' => some '\\'
  | '/' => some '/'
  | 'b' => some '\x08'
  | 'f' => some '\x0c'
  | 'n' => some '\n'
  | 'r' => some '\r'
  | 't' => some '\t'
  | _ => none

def hexNumber? (digits : List Char) : Option Nat :=
  if digits.all isHexDigit then
    some (digits.foldl (fun value digit => 16 * value + hexValue digit) 0)
  else none

/-- The inside of a quoted text behind its opening quote, and what follows its closing quote. -/
def spanQuoted? : List Char → Option (List Unit16 × List Char)
  | [] => none
  | '"' :: rest => some ([], rest)
  | '\\' :: 'u' :: first :: second :: third :: fourth :: rest =>
    match hexNumber? [first, second, third, fourth], spanQuoted? rest with
    | some number, some (units, rest) => some (.code number :: units, rest)
    | _, _ => none
  | '\\' :: letter :: rest =>
    match simpleEscape? letter, spanQuoted? rest with
    | some character, some (units, rest) => some (.character character :: units, rest)
    | _, _ => none
  | character :: rest =>
    if character.toNat < 32 || character = '\\' then none
    else (spanQuoted? rest).map fun (units, rest) => (.character character :: units, rest)

def isHighSurrogate (number : Nat) : Bool :=
  0xd800 ≤ number && number < 0xdc00

def isLowSurrogate (number : Nat) : Bool :=
  0xdc00 ≤ number && number < 0xe000

/-- The text that units stand for, unless a surrogate is alone. -/
def decodeUnits? : List Unit16 → Option (List Char)
  | [] => some []
  | .character character :: rest => (decodeUnits? rest).map (character :: ·)
  | .code high :: .code low :: rest =>
    if isHighSurrogate high then
      if isLowSurrogate low then
        (decodeUnits? rest).map
          (Char.ofNat (0x10000 + (high - 0xd800) * 0x400 + (low - 0xdc00)) :: ·)
      else none
    else if isLowSurrogate high then none
    else (decodeUnits? (.code low :: rest)).map (Char.ofNat high :: ·)
  | .code number :: rest =>
    if isHighSurrogate number || isLowSurrogate number then none
    else (decodeUnits? rest).map (Char.ofNat number :: ·)

example : (spanQuoted? "\\ud83d\\ude00\\n\" x".toList).map (fun span => decodeUnits? span.1) =
    some (some ['😀', '\n']) := by decide +kernel

end ScopedStyles.Json
