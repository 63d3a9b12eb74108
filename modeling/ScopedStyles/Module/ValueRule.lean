import ScopedStyles.Text.Cut
import ScopedStyles.Text.FromClause

/-!
The parameters of a `@value` rule: a definition, or names imported from a file. The file is given
by a quoted path, or by the name of a value that holds one.
-/

namespace ScopedStyles

open Text

inductive ValueSource where
  | path (specifier : String)
  | value (name : String)
deriving DecidableEq, Repr

structure ImportedName where
  imported : String
  localName : String
deriving DecidableEq, Repr

inductive ValueRule where
  | definition (name value : String)
  | imports (names : List ImportedName) (source : ValueSource)
deriving DecidableEq, Repr

namespace ValueRule

def isNameCharacter (character : Char) : Bool :=
  isWordCharacter character || character == '-'

def source? (text : List Char) : Option ValueSource :=
  match quotedSource? text with
  | some path => some (.path (String.ofList path))
  | none => (bareSource? isNameCharacter text).map fun name => .value (String.ofList name)

def importedName? (item : List Char) : Option ImportedName :=
  let name := item.takeWhile isNameCharacter
  let behind := item.dropWhile isNameCharacter
  if name.isEmpty then none
  else if behind.isEmpty then some ⟨String.ofList name, String.ofList name⟩
  else
    match behindWord? ['a', 's'] behind with
    | none => none
    | some other =>
      if !other.isEmpty && other.all isNameCharacter then
        some ⟨String.ofList name, String.ofList other⟩
      else none

def withoutParentheses : List Char → List Char
  | '(' :: rest => if rest.getLast? = some ')' then rest.dropLast else '(' :: rest
  | text => text

def importItems (list : List Char) : List (List Char) :=
  ((commaItems (withoutParentheses (trimCharacters list))).map trimCharacters).filter
    fun item => !item.isEmpty

/-- A definition: a name, then a colon or white space, then the value. -/
def definition? (text : List Char) : Option ValueRule :=
  let name := text.takeWhile isNameCharacter
  let behind := text.dropWhile isNameCharacter
  if name.isEmpty then none
  else
    match behind.dropWhile isBlank with
    | ':' :: value =>
      some (.definition (String.ofList name) (String.ofList (trimCharacters value)))
    | value =>
      if (behindBlank? behind).isSome then
        some (.definition (String.ofList name) (String.ofList (trimCharacters value)))
      else none

/-- Read the parameters of a `@value` rule. A list of imported names that cannot be read makes the
whole rule unreadable; an empty one makes it a definition. -/
def parse (params : String) : Option ValueRule :=
  let text := trimCharacters params.toList
  match cutFrom? source? text with
  | none => definition? text
  | some (list, source) =>
    match (importItems list).mapM importedName? with
    | none => none
    | some [] => definition? text
    | some names => some (.imports names source)

example : parse "a, b as c from './x.css'" =
    some (.imports [⟨"a", "a"⟩, ⟨"b", "c"⟩] (.path "./x.css")) := by decide +kernel
example : parse "small: 599px" = some (.definition "small" "599px") := by decide +kernel

end ValueRule

end ScopedStyles
