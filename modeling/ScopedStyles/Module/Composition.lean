import ScopedStyles.Sheet.Node
import ScopedStyles.Text.FromClause

/-!
The values of `composes` declarations: names of the same file, of another file, or passed through
untouched.
-/

namespace ScopedStyles

open Text

inductive ReferenceSource where
  | sameFile
  | passThrough
  | file (specifier : String)
deriving DecidableEq, Repr

structure Reference where
  name : String
  source : ReferenceSource
deriving DecidableEq, Repr

structure Composition where
  references : List Reference
  location : Location
deriving DecidableEq, Repr

namespace Composition

def isComposing (content : Declaration) : Bool :=
  content.name == "composes" || content.name == "compose-with"

/-- The source behind `from`: a path, in quotes or not, or the word `global`. -/
def source? (text : List Char) : Option ReferenceSource :=
  match quotedSource? text with
  | some path => some (.file (String.ofList path))
  | none =>
    (bareSource? (fun character => !isBlank character) text).map fun word =>
      if word = "global".toList then .passThrough else .file (String.ofList word)

def isSeparator (character : Char) : Bool :=
  isBlank character || character == ','

/-- The runs of characters between separators; `current` is the one being read, last character
first. -/
def cutNames (current : List Char) : List Char → List (List Char)
  | [] => if current.isEmpty then [] else [current.reverse]
  | character :: rest =>
    if isSeparator character then
      (if current.isEmpty then [] else [current.reverse]) ++ cutNames [] rest
    else cutNames (character :: current) rest

def globalName? (item : List Char) : Option (List Char) :=
  if "global(".toList.isPrefixOf item then
    let inside := item.drop 7
    let name := inside.takeWhile (· ≠ ')')
    if !name.isEmpty && inside.drop name.length = [')'] then some name else none
  else none

def reference (source : ReferenceSource) (item : List Char) : Reference :=
  match globalName? item with
  | some name => ⟨String.ofList name, .passThrough⟩
  | none => ⟨String.ofList item, source⟩

def readReferences (value : String) : List Reference :=
  let text := trimCharacters value.toList
  match cutFrom? source? text with
  | some (list, source) => (cutNames [] list).map (reference source)
  | none => (cutNames [] text).map (reference .sameFile)

example : readReferences "a, global(b) from './x.css'" =
    [⟨"a", .file "./x.css"⟩, ⟨"b", .passThrough⟩] := by decide +kernel

def ofDeclaration (content : Declaration) : Composition :=
  ⟨readReferences content.valueText, content.location⟩

end Composition

end ScopedStyles
