import ScopedStyles.Selector.Mode
import ScopedStyles.Selector.Piece

/-!
Annotated selectors: every class and id in scanned position is marked local or global. The mark
follows from the mode in force, which starts as the mode of the surroundings and is changed for the
rest of a selector by a switch, and for its arguments by a wrapper. Wrappers and switches cannot
stand inside a wrapper or a block that is one.
-/

namespace ScopedStyles

open Text

namespace Selector

/-- A piece of an annotated selector: text, or a class or id with its decoded name and the name as
spelled. -/
inductive Segment where
  | text (text : String)
  | name (sigil : Sigil) (name spelling : String) (isLocal : Bool)
deriving DecidableEq, Repr

namespace Segment

def localName? : Segment → Option String
  | .name _ decoded _ true => some decoded
  | _ => none

def isBlank : Segment → Bool
  | .text copied => copied.toList.all Text.isBlank
  | .name .. => false

def render (rename : String → String) : Segment → String
  | .text copied => copied
  | .name sigil decoded spelling isLocal =>
    String.singleton sigil.character ++
      if isLocal then escapeIdentifier (rename decoded) else spelling

end Segment

def textSegments (text : List Char) : List Segment :=
  if text.isEmpty then [] else [.text (String.ofList text)]

def nameSegment (mode : Mode) (sigil : Sigil) (spelling : List Char) : Segment :=
  .name sigil (String.ofList (Identifier.decode spelling)) (String.ofList spelling) mode.isLocal

/-! ## Marking

`text` is what has been copied since the last segment. Nothing is the answer when a wrapper or a
switch stands inside a wrapper. -/

mutual
/-- The segments of one piece, the text carried on behind it, and the mode behind it. -/
def annotatePiece (mode : Mode) (inWrapper : Bool) (text : List Char) :
    Piece → Option (List Segment × List Char × Mode)
  | .verbatim copied => some ([], text ++ copied, mode)
  | .name sigil spelling => some (textSegments text ++ [nameSegment mode sigil spelling], [], mode)
  | .switch isGlobal => if inWrapper then none else some ([], text, .switched isGlobal)
  | .wrapper isGlobal arguments =>
    if inWrapper then none
    else
      (annotateList (.switched isGlobal) true arguments).map fun inside =>
        (textSegments text ++ inside, [], mode)
  | .functional name arguments =>
    (annotateList mode inWrapper arguments).map fun inside =>
      (textSegments (text ++ ':' :: name ++ ['(']) ++ inside, [')'], mode)

def annotatePieces (mode : Mode) (inWrapper : Bool) (text : List Char) :
    List Piece → Option (List Segment)
  | [] => some (textSegments text)
  | piece :: rest =>
    match annotatePiece mode inWrapper text piece with
    | none => none
    | some (segments, text, mode) =>
      (annotatePieces mode inWrapper text rest).map (segments ++ ·)

def annotateList (mode : Mode) (inWrapper : Bool) : List (List Piece) → Option (List Segment)
  | [] => some []
  | first :: rest =>
    match annotatePieces mode inWrapper [] first, annotateRest mode inWrapper rest with
    | some segments, some others => some (segments ++ others)
    | _, _ => none

def annotateRest (mode : Mode) (inWrapper : Bool) : List (List Piece) → Option (List Segment)
  | [] => some []
  | first :: rest =>
    match annotatePieces mode inWrapper [] first, annotateRest mode inWrapper rest with
    | some segments, some others => some (.text "," :: segments ++ others)
    | _, _ => none
end

end Selector

structure AnnotatedSelector where
  segments : List Selector.Segment
deriving DecidableEq, Repr

namespace AnnotatedSelector

open Selector

def localNames (selector : AnnotatedSelector) : List String :=
  selector.segments.filterMap Segment.localName?

def hasLocal (selector : AnnotatedSelector) : Bool :=
  !selector.localNames.isEmpty

/-- The name of a selector that is exactly one local class, white space aside. -/
def singleLocalClass? (selector : AnnotatedSelector) : Option String :=
  match selector.segments.filter fun segment => !segment.isBlank with
  | [.name .dot name _ true] => some name
  | _ => none

def render (rename : String → String) (selector : AnnotatedSelector) : String :=
  trim (String.join (selector.segments.map (Segment.render rename)))

end AnnotatedSelector

structure NestedWrapper where
  selector : String
deriving DecidableEq, Repr

def NestedWrapper.message (nested : NestedWrapper) : String :=
  "a :global or :local wrapper cannot be nested in \"" ++ nested.selector ++ "\""

def annotateSelectors (selectors : String) (mode : Mode) :
    Except NestedWrapper (List AnnotatedSelector) :=
  let annotated := (commaItems selectors.toList).mapM fun item =>
    Selector.annotatePieces mode mode.isBlock [] (Selector.Piece.read item)
  match annotated with
  | some lists => .ok (lists.map AnnotatedSelector.mk)
  | none => .error ⟨trim selectors⟩

def renderSelectors (rename : String → String) (selectors : List AnnotatedSelector) : String :=
  String.intercalate "," (selectors.map (AnnotatedSelector.render rename))

end ScopedStyles
