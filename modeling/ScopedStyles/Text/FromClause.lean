import ScopedStyles.Text.Character

/-!
Lists that end in a `from` clause: the word stands between white space behind a non-empty list, and
one source follows it. The first place where the rest of the text reads as a clause is taken.
-/

namespace ScopedStyles.Text

/-- The text between quotes at the beginning, if nothing but white space follows it. -/
def quotedSource? : List Char → Option (List Char)
  | [] => none
  | quote :: rest =>
    if isQuote quote then
      match rest.dropWhile (· ≠ quote) with
      | [] => none
      | _ :: behind => if behind.all isBlank then some (rest.takeWhile (· ≠ quote)) else none
    else none

def bareSource? (test : Char → Bool) (text : List Char) : Option (List Char) :=
  let run := text.takeWhile test
  if !run.isEmpty && (text.dropWhile test).all isBlank then some run else none

def behindBlank? : List Char → Option (List Char)
  | [] => none
  | character :: rest => if isBlank character then some (rest.dropWhile isBlank) else none

def behindWord? (word text : List Char) : Option (List Char) :=
  match behindBlank? text with
  | none => none
  | some behind =>
    if word.isPrefixOf behind then behindBlank? (behind.drop word.length) else none

def cutFrom? (source? : List Char → Option α) : List Char → Option (List Char × α)
  | [] => none
  | character :: rest =>
    match (behindWord? ['f', 'r', 'o', 'm'] rest).bind source? with
    | some source => some ([character], source)
    | none => (cutFrom? source? rest).map fun (list, source) => (character :: list, source)

example : cutFrom? quotedSource? "a b from 'x y' ".toList = some ("a b".toList, "x y".toList) := by
  decide +kernel

end ScopedStyles.Text
