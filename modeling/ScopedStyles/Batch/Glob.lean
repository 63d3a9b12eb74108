import ScopedStyles.Batch.Tree

/-!
Glob patterns: `?` stands for a character, `*` for any characters of a name, a class in brackets
for one of its characters, and a name that is nothing but `**` for any number of directories.
-/

namespace ScopedStyles

namespace Glob

structure Range where
  first : Char
  last : Char
deriving DecidableEq, Repr

inductive Token where
  | literal (character : Char)
  | anyCharacter
  | anyText
  | oneOf (ranges : List Range) (isNegated : Bool)
deriving DecidableEq, Repr

inductive Part where
  | name (tokens : List Token)
  | directories
deriving DecidableEq, Repr

/-! ## Reading -/

def isPattern (text : String) : Bool :=
  text.toList.any fun character => character == '*' || character == '?' || character == '['

def ranges : List Char → List Range
  | first :: '-' :: last :: rest => ⟨first, last⟩ :: ranges rest
  | first :: rest => ⟨first, first⟩ :: ranges rest
  | [] => []

/-- A class behind its opening bracket, and what follows it; the first character is always a
member. -/
def readClass? (text : List Char) : Option (Token × List Char) :=
  let isNegated := text.head? == some '!'
  match if isNegated then text.drop 1 else text with
  | [] => none
  | first :: rest =>
    let members := rest.takeWhile (· ≠ ']')
    match rest.dropWhile (· ≠ ']') with
    | [] => none
    | _ :: behind => some (.oneOf (ranges (first :: members)) isNegated, behind)

/-- The tokens of a name, at most as many as `fuel`. Two stars next to each other do not stand in
a name. -/
def readTokens? : (fuel : Nat) → List Char → Option (List Token)
  | _, [] => some []
  | 0, _ => none
  | _ + 1, '*' :: '*' :: _ => none
  | fuel + 1, '*' :: rest => (readTokens? fuel rest).map (.anyText :: ·)
  | fuel + 1, '?' :: rest => (readTokens? fuel rest).map (.anyCharacter :: ·)
  | fuel + 1, '[' :: rest =>
    match readClass? rest with
    | none => none
    | some (token, rest) => (readTokens? fuel rest).map (token :: ·)
  | fuel + 1, character :: rest => (readTokens? fuel rest).map (.literal character :: ·)

def readPart? (part : String) : Option Part :=
  if part = "**" then some .directories
  else (readTokens? part.length part.toList).map .name

def read? (pattern : String) : Option (List Part) :=
  let parts := (WrittenPath.parts pattern).drop 1
  (if parts.getLast? = some "" then parts.dropLast else parts).mapM readPart?

/-! ## Matching names -/

namespace Token

def accepts (token : Token) (character : Char) : Bool :=
  match token with
  | .literal expected => expected == character
  | .anyCharacter => true
  | .anyText => false
  | .oneOf ranges isNegated =>
    ranges.any (fun range => range.first ≤ character && character ≤ range.last) != isNegated

def character? : Token → Option Char
  | .literal character => some character
  | _ => none

end Token

def ends : List Char → List (List Char)
  | [] => [[]]
  | first :: rest => (first :: rest) :: ends rest

def acceptsAll : List Token → List Char → Bool
  | [], text => text.isEmpty
  | .anyText :: tokens, text => (ends text).any (acceptsAll tokens)
  | token :: tokens, first :: rest => token.accepts first && acceptsAll tokens rest
  | _ :: _, [] => false

namespace Part

def accepts (part : Part) (name : String) : Bool :=
  match part with
  | .name tokens => acceptsAll tokens name.toList
  | .directories => false

def literal? : Part → Option String
  | .directories => none
  | .name tokens =>
    (tokens.mapM Token.character?).map String.ofList

def isDirectories : Part → Bool
  | .directories => true
  | .name _ => false

/-- Whether a part begins with a dot; only then it can mean the special directories. -/
def beginsWithDot : Part → Bool
  | .name (.literal '.' :: _) => true
  | _ => false

end Part

example : (readPart? "[!a-c]?*.css").map (·.accepts "dx.css") = some true := by decide +kernel
example : readPart? "[]" = none ∧ readPart? "a**" = none := by decide +kernel

/-! ## Walking -/

structure Spot where
  path : String
  place : Place
deriving DecidableEq, Repr

/-- A spot and the parts that are still to be matched, beginning with the name of the spot. A spot
without such parts is a match. -/
abbrev Pending := Spot × List Part

namespace Spot

def step? (tree : Tree) (spot : Spot) (part : String) : Option Spot :=
  (tree.step? spot.place part).map fun place => ⟨WrittenPath.join spot.path part, place⟩

end Spot

/-- What to look at for parts inside a spot: the one entry that a literal part names, or all
entries of the directory. -/
def enter (tree : Tree) : List Part → Spot → List Pending
  | [], _ => []
  | part :: parts, spot =>
    let go (name : String) : List Pending :=
      match spot.step? tree name with
      | none => []
      | some inner => if parts.isEmpty then [(inner, [])] else enter tree parts inner
    match part.literal? with
    | some name => go name
    | none =>
      if tree.hasDirectory spot.place then
        (if part.beginsWithDot then
          ["..", "."].flatMap fun name => if part.accepts name then go name else []
        else []) ++
          (tree.namesIn spot.place).map fun name =>
            (⟨WrittenPath.join spot.path name, spot.place ++ [name]⟩, part :: parts)
      else []

def visit (tree : Tree) : (fuel : Nat) → Pending → List Spot
  | _, (spot, []) => [spot]
  | 0, _ => []
  | fuel + 1, (spot, parts) =>
    let behind := parts.dropWhile Part.isDirectories
    let matched := match behind with
      | [] => if tree.hasDirectory spot.place then [spot] else []
      | part :: rest =>
        if part.accepts (spot.place.getLast?.getD "") then
          if rest.isEmpty then [spot] else (enter tree rest spot).flatMap (visit tree fuel)
        else []
    let inside :=
      if (parts.head?.map Part.isDirectories).getD false then
        (enter tree (.directories :: behind) spot).flatMap (visit tree fuel)
      else []
    matched ++ inside

/-- The paths that match parts, in the order of the walk. Every step of the walk goes deeper into
the tree or on to the next part. -/
def matchesOf (tree : Tree) (parts : List Part) : List String :=
  let entries := tree.directories.length + tree.files.size
  ((enter tree parts ⟨"/", []⟩).flatMap
    (visit tree ((entries + 1) * (parts.length + 1)))).map Spot.path

end Glob

def globFiles? (tree : Tree) (pattern : String) : Option (List String) :=
  (Glob.read? pattern).map fun parts =>
    if pattern.toList.getLast? = some '/' then []
    else (Glob.matchesOf tree parts).filter tree.isFile

example :
    globFiles? (.ofList [("/w/b.css", ""), ("/w/a/c.css", ""), ("/w/a/d.txt", "")]) "/w/**/*.css" =
      some ["/w/a/c.css", "/w/b.css"] := by decide +kernel

end ScopedStyles
