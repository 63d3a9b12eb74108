import ScopedStyles.Foundation.OrderedMap
import ScopedStyles.Path.Specifier
import ScopedStyles.Path.Written

/-!
Trees of directories and text files. A place in the tree is the list of the names that lead to it
from the root; a written path means the place that its parts lead to, one after the other.
-/

namespace ScopedStyles

abbrev Place := List String

structure Tree where
  directories : List Place
  files : OrderedMap Place String
deriving DecidableEq, Repr

namespace Tree

def empty : Tree := ⟨[], .empty⟩

instance : Inhabited Tree := ⟨empty⟩

/-! ## Places -/

def hasDirectory (tree : Tree) (place : Place) : Bool :=
  place.isEmpty || tree.directories.contains place

def hasFile (tree : Tree) (place : Place) : Bool :=
  tree.files.contains place

def step? (tree : Tree) (place : Place) (part : String) : Option Place :=
  if !tree.hasDirectory place then none
  else if WrittenPath.isIdle part then some place
  else if part = ".." then some place.dropLast
  else
    let inner := place ++ [part]
    if tree.hasDirectory inner || tree.hasFile inner then some inner else none

def find? (tree : Tree) (path : String) : Option Place :=
  if WrittenPath.isAbsolute path then ((WrittenPath.parts path).drop 1).foldlM tree.step? []
  else none

def isFile (tree : Tree) (path : String) : Bool :=
  ((tree.find? path).map tree.hasFile).getD false

def read? (tree : Tree) (path : String) : Option String :=
  (tree.find? path).bind tree.files.get?

def insertSorted (name : String) : List String → List String
  | [] => [name]
  | first :: rest =>
    if first < name then first :: insertSorted name rest
    else if first = name then first :: rest
    else name :: first :: rest

def namesIn (tree : Tree) (place : Place) : List String :=
  (tree.directories ++ tree.files.keys).foldr
    (fun other names =>
      match other.getLast? with
      | some name => if other.dropLast = place then insertSorted name names else names
      | none => names) []

/-- The files of a tree under normalized paths; what has no such path is left out. -/
def toFiles (tree : Tree) (directory : String) : Files :=
  let segment? (name : String) : Option Path.Segment :=
    if proper : Path.isSegment name then some ⟨name, proper⟩ else none
  ⟨⟨tree.files.entries.filterMap fun (place, content) =>
      (place.mapM segment?).map fun segments => (⟨.slash, segments⟩, content)⟩,
    .parse directory⟩

/-! ## Writing -/

def addDirectory (tree : Tree) (place : Place) : Tree :=
  if tree.hasDirectory place then tree
  else { tree with directories := tree.directories ++ [place] }

/-- Go from a directory to what a part means there, which is made if it does not exist. Nothing
can be made inside a file. -/
def makeStep? (state : Tree × Place) (part : String) : Option (Tree × Place) :=
  let (tree, place) := state
  if WrittenPath.isIdle part then some (tree, place)
  else if part = ".." then some (tree, place.dropLast)
  else
    let inner := place ++ [part]
    if tree.hasFile inner then none else some (tree.addDirectory inner, inner)

def makeDirectories? (tree : Tree) (path : String) : Option Tree :=
  (((WrittenPath.parts path).drop 1).foldlM makeStep? (tree, [])).map Prod.fst

def write? (tree : Tree) (path content : String) : Option Tree :=
  let parts := WrittenPath.parts path
  match ((parts.drop 1).dropLast).foldlM tree.step? [], parts.getLast? with
  | some place, some name =>
    if !tree.hasDirectory place || WrittenPath.isIdle name || name = ".." ||
        tree.hasDirectory (place ++ [name]) then none
    else some { tree with files := tree.files.insert (place ++ [name]) content }
  | _, _ => none

/-- Put a text into a file and make the directories that lead to it, if that can be done. -/
def store (tree : Tree) (path content : String) : Tree :=
  (((WrittenPath.parent? path).bind tree.makeDirectories?).bind (·.write? path content)).getD tree

def ofList (files : List (String × String)) : Tree :=
  files.foldl (fun tree (path, content) => tree.store path content) empty

example : (ofList [("/a/b.css", "x"), ("/a/c/d.css", "y")]).read? "/a/c/../b.css" = some "x" := by
  decide +kernel

end Tree

end ScopedStyles
