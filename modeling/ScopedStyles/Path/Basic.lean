import ScopedStyles.Text.Character

/-!
Absolute paths: a root and the names below it. A path has one written form, with slashes between
the names; other spellings, with backslashes, repeated slashes, dots and double dots, are read into
that form. A double dot at the root stays there.
-/

namespace ScopedStyles

open Text

namespace Path

/-- Whether a name can stand in a path: it is not empty, no dot or double dot, and has no slash or
backslash. -/
def isSegment (name : String) : Bool :=
  !name.isEmpty && name != "." && name != ".." &&
    name.toList.all fun character => character != '/' && character != '\\'

abbrev Segment := { name : String // isSegment name }

/-- Where a path begins: at the slash, or at a drive with a letter of ASCII. -/
inductive Root where
  | slash
  | drive (letter : { letter : Char // letter.isAlpha })
deriving DecidableEq

def Root.text : Root → String
  | .slash => "/"
  | .drive letter => String.ofList [letter.1, ':', '/']

end Path

structure Path where
  root : Path.Root
  segments : List Path.Segment
deriving DecidableEq

namespace Path

def top : Path := ⟨.slash, []⟩

instance : Inhabited Path := ⟨top⟩

def names (path : Path) : List String :=
  path.segments.map Subtype.val

def text (path : Path) : String :=
  path.root.text ++ String.intercalate "/" path.names

instance : ToString Path := ⟨text⟩

/-! ## Reading paths -/

def splitAt (separator : Char) : List Char → List (List Char)
  | [] => [[]]
  | character :: rest =>
    if character = separator then [] :: splitAt separator rest
    else
      match splitAt separator rest with
      | [] => [[character]]
      | first :: others => (character :: first) :: others

def step (segments : List Segment) (name : List Char) : List Segment :=
  if name = ['.', '.'] then segments.dropLast
  else if proper : isSegment (String.ofList name) then segments ++ [⟨String.ofList name, proper⟩]
  else segments

def walk (segments : List Segment) (text : List Char) : List Segment :=
  (splitAt '/' (text.map fun character => if character = '\\' then '/' else character)).foldl
    step segments

def drive? : List Char → Option ({ letter : Char // letter.isAlpha } × List Char)
  | letter :: ':' :: rest =>
    if isLetter : letter.isAlpha then some (⟨letter, isLetter⟩, rest) else none
  | _ => none

def parse (text : String) : Path :=
  match drive? text.toList with
  | some (letter, rest) => ⟨.drive letter, walk [] rest⟩
  | none => ⟨.slash, walk [] text.toList⟩

def isRooted (text : String) : Bool :=
  text.toList.head? == some '/' || text.toList.head? == some '\\' || (drive? text.toList).isSome

def resolve (base : Path) (relative : String) : Path :=
  if isRooted relative then parse relative else ⟨base.root, walk base.segments relative.toList⟩

example : (parse "/a/./b/../c.css").text = "/a/c.css" := by decide +kernel
example : (parse "C:\\w\\..\\..\\a").text = "C:/a" := by decide +kernel
example : ((parse "/a/b").resolve "../c").text = "/a/c" := by decide +kernel

/-! ## Around a path -/

def parent? (path : Path) : Option Path :=
  if path.segments.isEmpty then none else some ⟨path.root, path.segments.dropLast⟩

/-- The containing directory, a root containing itself. -/
def directory (path : Path) : Path :=
  path.parent?.getD path

def fileName (path : Path) : String :=
  path.names.getLast?.getD ""

def commonLength : List String → List String → Nat
  | left :: lefts, right :: rights => if left = right then commonLength lefts rights + 1 else 0
  | _, _ => 0

/-- The path as seen from a directory, or its written form when the roots differ. -/
def relativeTo (path base : Path) : String :=
  if path.root = base.root then
    let common := commonLength base.names path.names
    String.intercalate "/"
      (List.replicate (base.names.length - common) ".." ++ path.names.drop common)
  else path.text

example : (parse "/a/b/c").relativeTo (parse "/a/d") = "../b/c" := by decide +kernel

/-- The order of the written forms, by code point. -/
def compareText (left right : Path) : Ordering :=
  compare left.text right.text

def upward (path : Path) : List Path :=
  (List.range (path.segments.length + 1)).map fun steps =>
    ⟨path.root, path.segments.take (path.segments.length - steps)⟩

end Path

end ScopedStyles
