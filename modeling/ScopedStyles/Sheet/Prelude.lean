import ScopedStyles.Sheet.Node

/-!
A prelude is the text up to a brace or semicolon outside parentheses, brackets, strings and
comments: a selector, a declaration, or the parameters of an at-rule. It is read one character at a
time; the region a character stands in, together with the character behind it, decides the region
of the next one.
-/

namespace ScopedStyles

open Text

inductive Region where
  | code
  | escape
  | string (quote : Char)
  | stringEscape (quote : Char)
  | commentStart
  | comment
  | commentEnd
deriving DecidableEq, Repr

namespace Region

def opensComment (character : Char) (following : Option Char) : Bool :=
  character == '/' && following == some '*'

def closesComment (character : Char) (following : Option Char) : Bool :=
  character == '*' && following == some '/'

/-- The region behind a character. A string ends at its quote or at the end of its line. -/
def next (region : Region) (character : Char) (following : Option Char) : Region :=
  match region with
  | .code =>
    if opensComment character following then .commentStart
    else if character = '\\' then .escape
    else if isQuote character then .string character
    else .code
  | .escape => .code
  | .string quote =>
    if character = '\\' then .stringEscape quote
    else if character = quote || character = '\n' then .code
    else .string quote
  | .stringEscape quote => .string quote
  | .commentStart => .comment
  | .comment => if closesComment character following then .commentEnd else .comment
  | .commentEnd => .code

def keeps (region : Region) (character : Char) (following : Option Char) : Bool :=
  match region with
  | .code => !opensComment character following
  | .commentStart | .comment | .commentEnd => false
  | _ => true

/-- Bracket depth behind a character; more closing than opening brackets count as none. -/
def depthAfter (region : Region) (depth : Nat) (character : Char) : Nat :=
  if region = .code then
    if character = '(' || character = '[' then depth + 1
    else if character = ')' || character = ']' then depth - 1
    else depth
  else depth

end Region

inductive Terminator where
  | opening
  | semicolon
  | closing
  | ending
deriving DecidableEq, Repr

structure Prelude where
  text : List Char
  terminator : Terminator
  rest : List LocatedCharacter
deriving Repr

namespace Prelude

def terminator? (region : Region) (depth : Nat) (character : Char) : Option Terminator :=
  if region = .code ∧ depth = 0 then
    if character = '{' then some .opening
    else if character = ';' then some .semicolon
    else if character = '}' then some .closing
    else none
  else none

def following (text : List LocatedCharacter) : Option Char :=
  text.head?.map LocatedCharacter.character

def scan (region : Region) (depth : Nat) : List LocatedCharacter → Prelude
  | [] => ⟨[], .ending, []⟩
  | first :: rest =>
    match terminator? region depth first.character with
    | some terminator => ⟨[], terminator, rest⟩
    | none =>
      let prelude :=
        scan (region.next first.character (following rest))
          (region.depthAfter depth first.character) rest
      if region.keeps first.character (following rest) then
        { prelude with text := first.character :: prelude.text }
      else prelude

def read (text : List LocatedCharacter) : Prelude :=
  scan .code 0 text

theorem length_rest_scan_le (region : Region) (depth : Nat) (text : List LocatedCharacter) :
    (scan region depth text).rest.length ≤ text.length := by
  induction text generalizing region depth with
  | nil => simp [scan]
  | cons first rest induction =>
    have shorter := induction (region.next first.character (following rest))
      (region.depthAfter depth first.character)
    unfold scan
    split
    · simp
    · dsimp only
      split <;> exact Nat.le_succ_of_le shorter

/-- Whatever ends a prelude is taken with it, so a prelude uses up some of its text. -/
theorem length_rest_read_lt (first : LocatedCharacter) (rest : List LocatedCharacter) :
    (read (first :: rest)).rest.length < (first :: rest).length := by
  have shorter := length_rest_scan_le (Region.next .code first.character (following rest))
    (Region.depthAfter .code 0 first.character) rest
  unfold read scan
  split
  · simp
  · dsimp only
    split <;> exact Nat.lt_succ_of_le shorter

theorem length_rest_read_le (text : List LocatedCharacter) :
    (read text).rest.length ≤ text.length :=
  length_rest_scan_le .code 0 text

example : (read (locateText "a/*;*/[;]';'\\;b;c")).text = "a[;]';'\\;b".toList := by decide

end Prelude

end ScopedStyles
