import ScopedStyles.Proofs.Selector.Verbatim

/-!
Pieces printed with their names spelled anew. A selector without wrappers and switches is annotated,
and its segments are printed, as if its pieces were printed one behind the other.
-/

namespace ScopedStyles

open Text

namespace Selector

/-! ## What is printed -/

mutual
/-- The text of a piece with its names respelled. -/
def Piece.print (respell : List Char → List Char) : Piece → List Char
  | .verbatim text => text
  | .name sigil spelling => sigil.character :: respell spelling
  | .switch _ => []
  | .wrapper _ arguments => [','].intercalate (printItems respell arguments)
  | .functional name arguments =>
    ':' :: name ++ '(' :: [','].intercalate (printItems respell arguments) ++ [')']

def printPieces (respell : List Char → List Char) : List Piece → List Char
  | [] => []
  | first :: rest => first.print respell ++ printPieces respell rest

def printItems (respell : List Char → List Char) : List (List Piece) → List (List Char)
  | [] => []
  | first :: rest => printPieces respell first :: printItems respell rest
end

theorem printItems_eq_map (respell : List Char → List Char) (items : List (List Piece)) :
    printItems respell items = items.map (printPieces respell) := by
  induction items with
  | nil => rfl
  | cons first rest induction => rw [printItems, induction, List.map_cons]

mutual
/-- What is printed of the selectors in arguments, at every depth. -/
def Piece.printedArguments (respell : List Char → List Char) : Piece → List (List Char)
  | .wrapper _ arguments | .functional _ arguments => listPrinted respell arguments
  | _ => []

def selectorPrintedArguments (respell : List Char → List Char) : List Piece → List (List Char)
  | [] => []
  | first :: rest => first.printedArguments respell ++ selectorPrintedArguments respell rest

def listPrinted (respell : List Char → List Char) : List (List Piece) → List (List Char)
  | [] => []
  | first :: rest =>
    printPieces respell first :: selectorPrintedArguments respell first ++ listPrinted respell rest
end

theorem listPrinted_eq_flatMap (respell : List Char → List Char) (items : List (List Piece)) :
    listPrinted respell items = items.flatMap fun item =>
      printPieces respell item :: selectorPrintedArguments respell item := by
  induction items with
  | nil => rfl
  | cons first rest induction => rw [listPrinted, induction, List.flatMap_cons]

/-! ## What is referred to -/

/-- A class or an id with its name as spelled, or the place of a wrapper or a switch. -/
inductive Word where
  | scope
  | name (sigil : Sigil) (spelling : List Char)
deriving DecidableEq, Repr

mutual
/-- The classes and ids of a piece, in order. -/
def Piece.words : Piece → List Word
  | .verbatim _ => []
  | .name sigil spelling => [.name sigil spelling]
  | .switch _ => [.scope]
  | .wrapper _ arguments => .scope :: listWords arguments
  | .functional _ arguments => listWords arguments

def selectorWords : List Piece → List Word
  | [] => []
  | first :: rest => first.words ++ selectorWords rest

def listWords : List (List Piece) → List Word
  | [] => []
  | first :: rest => selectorWords first ++ listWords rest
end

theorem listWords_eq_flatMap (items : List (List Piece)) :
    listWords items = items.flatMap selectorWords := by
  induction items with
  | nil => rfl
  | cons first rest induction => rw [listWords, induction, List.flatMap_cons]

/-- The word with its name decoded once it is respelled. -/
def Word.decode (respell : List Char → List Char) : Word → Word
  | .scope => .scope
  | .name sigil spelling => .name sigil (Identifier.decode (respell spelling))

/-- The class or id of a word, renamed if names are local. -/
def Word.reference? (mode : Mode) (rename : String → String) : Word → Option (Sigil × String)
  | .scope => none
  | .name sigil spelling =>
    let decoded := String.ofList (Identifier.decode spelling)
    some (sigil, if mode.isLocal then rename decoded else decoded)

/-- The class or id of a segment, renamed if it is local. -/
def Segment.reference? (rename : String → String) : Segment → Option (Sigil × String)
  | .text _ => none
  | .name sigil decoded _ isLocal => some (sigil, if isLocal then rename decoded else decoded)

def references (rename : String → String) (segments : List Segment) : List (Sigil × String) :=
  segments.filterMap (Segment.reference? rename)

/-- How a name is spelled under a mode: local names are renamed, the others stay as they are. -/
def respelling (mode : Mode) (rename : String → String) (spelling : List Char) : List Char :=
  if mode.isLocal then
    (escapeIdentifier (rename (String.ofList (Identifier.decode spelling)))).toList
  else spelling

/-! ## Annotated pieces -/

/-- Segments, and the text carried on behind them, show a text and the words in it. -/
structure Shows (mode : Mode) (segments : List Segment) (carried : List Char)
    (text : (List Char → List Char) → List Char) (words : List Word) : Prop where
  prints : ∀ rename, printed rename segments ++ carried = text (respelling mode rename)
  refers : ∀ rename, references rename segments = words.filterMap (Word.reference? mode rename)

section

variable {mode : Mode} {inWrapper : Bool} {segments others : List Segment}
  {text carried : List Char}

theorem references_append (rename : String → String) (segments others : List Segment) :
    references rename (segments ++ others) =
      references rename segments ++ references rename others :=
  List.filterMap_append

theorem references_textSegments (rename : String → String) (text : List Char) :
    references rename (textSegments text) = [] := by
  unfold textSegments
  split <;> simp [references, Segment.reference?]

theorem shows_name (mode : Mode) (text : List Char) (sigil : Sigil) (spelling : List Char) :
    Shows mode (textSegments text ++ [nameSegment mode sigil spelling]) []
      (fun respell => text ++ (Piece.name sigil spelling).print respell)
      [.name sigil spelling] := by
  refine ⟨fun rename => ?_, fun rename => ?_⟩
  · rw [printed_append, printed_textSegments, List.append_nil, Piece.print]
    simp only [printed, nameSegment, Segment.render, respelling, List.flatMap_cons,
      List.flatMap_nil, List.append_nil, String.toList_append, String.toList_singleton]
    split <;> simp
  · rw [references_append, references_textSegments]
    rfl

theorem intercalate_printItems (respell : List Char → List Char) (first : List Piece)
    (rest : List (List Piece)) :
    [','].intercalate (printItems respell (first :: rest)) =
      printPieces respell first ++ (printItems respell rest).flatMap (',' :: ·) := by
  rw [printItems]
  induction rest generalizing first with
  | nil => simp [printItems]
  | cons second rest induction =>
    rw [printItems, List.intercalate_cons_cons, induction, List.flatMap_cons]
    simp

mutual
theorem shows_piece (mode : Mode) (inWrapper : Bool) (text : List Char) :
    (piece : Piece) → .scope ∉ piece.words →
      ∃ segments carried, annotatePiece mode inWrapper text piece =
          some (segments, carried, mode) ∧
        Shows mode segments carried (fun respell => text ++ piece.print respell) piece.words
  | .verbatim copied, _ => ⟨[], text ++ copied, rfl, fun rename => rfl, fun _ => rfl⟩
  | .name sigil spelling, _ => ⟨_, [], rfl, shows_name mode text sigil spelling⟩
  | .switch _, unscoped => absurd List.mem_cons_self unscoped
  | .wrapper _ _, unscoped => absurd List.mem_cons_self unscoped
  | .functional name arguments, unscoped => by
    obtain ⟨inside, annotates, shows⟩ := shows_list mode inWrapper arguments unscoped
    refine ⟨textSegments (text ++ ':' :: name ++ ['(']) ++ inside, [')'],
      by rw [annotatePiece, annotates]; rfl, fun rename => ?_, fun rename => ?_⟩
    · have printsInside := shows.prints rename
      rw [List.append_nil] at printsInside
      rw [printed_append, printed_textSegments, printsInside, Piece.print]
      simp
    · rw [references_append, references_textSegments, List.nil_append]
      exact shows.refers rename

theorem shows_pieces (mode : Mode) (inWrapper : Bool) (text : List Char) :
    (pieces : List Piece) → .scope ∉ selectorWords pieces →
      ∃ segments, annotatePieces mode inWrapper text pieces = some segments ∧
        Shows mode segments [] (fun respell => text ++ printPieces respell pieces)
          (selectorWords pieces)
  | [], _ => by
    refine ⟨textSegments text, rfl, fun rename => ?_, fun rename => ?_⟩
    · rw [printed_textSegments, printPieces]
    · exact references_textSegments rename text
  | first :: rest, unscoped => by
    obtain ⟨unscopedFirst, unscopedRest⟩ := not_or.mp (mt List.mem_append.mpr unscoped)
    obtain ⟨segments, carried, annotates, shows⟩ :=
      shows_piece mode inWrapper text first unscopedFirst
    obtain ⟨others, annotatesRest, showsRest⟩ :=
      shows_pieces mode inWrapper carried rest unscopedRest
    refine ⟨segments ++ others, by rw [annotatePieces, annotates]; simp [annotatesRest],
      fun rename => ?_, fun rename => ?_⟩
    · rw [printed_append, List.append_assoc, showsRest.prints rename, ← List.append_assoc,
        shows.prints rename, printPieces, List.append_assoc]
    · rw [references_append, shows.refers, showsRest.refers, selectorWords, List.filterMap_append]

theorem shows_list (mode : Mode) (inWrapper : Bool) :
    (items : List (List Piece)) → .scope ∉ listWords items →
      ∃ segments, annotateList mode inWrapper items = some segments ∧
        Shows mode segments [] (fun respell => [','].intercalate (printItems respell items))
          (listWords items)
  | [], _ => ⟨[], rfl, fun rename => rfl, fun rename => rfl⟩
  | first :: rest, unscoped => by
    obtain ⟨unscopedFirst, unscopedRest⟩ := not_or.mp (mt List.mem_append.mpr unscoped)
    obtain ⟨segments, annotates, shows⟩ := shows_pieces mode inWrapper [] first unscopedFirst
    obtain ⟨others, annotatesRest, showsRest⟩ := shows_rest mode inWrapper rest unscopedRest
    refine ⟨segments ++ others, by rw [annotateList, annotates, annotatesRest],
      fun rename => ?_, fun rename => ?_⟩
    · rw [printed_append, List.append_assoc, showsRest.prints rename, intercalate_printItems]
      have prints := shows.prints rename
      rw [List.append_nil, List.nil_append] at prints
      rw [prints]
    · rw [references_append, shows.refers, showsRest.refers, listWords, List.filterMap_append]

theorem shows_rest (mode : Mode) (inWrapper : Bool) :
    (items : List (List Piece)) → .scope ∉ listWords items →
      ∃ segments, annotateRest mode inWrapper items = some segments ∧
        Shows mode segments [] (fun respell => (printItems respell items).flatMap (',' :: ·))
          (listWords items)
  | [], _ => ⟨[], rfl, fun rename => rfl, fun rename => rfl⟩
  | first :: rest, unscoped => by
    obtain ⟨unscopedFirst, unscopedRest⟩ := not_or.mp (mt List.mem_append.mpr unscoped)
    obtain ⟨segments, annotates, shows⟩ := shows_pieces mode inWrapper [] first unscopedFirst
    obtain ⟨others, annotatesRest, showsRest⟩ := shows_rest mode inWrapper rest unscopedRest
    refine ⟨.text "," :: segments ++ others, by rw [annotateRest, annotates, annotatesRest],
      fun rename => ?_, fun rename => ?_⟩
    · have prints := shows.prints rename
      rw [List.append_nil, List.nil_append] at prints
      rw [printed_append, List.append_assoc, showsRest.prints rename, printItems,
        List.flatMap_cons, ← prints]
      simp [printed, Segment.render]
    · rw [references_append, showsRest.refers, listWords, List.filterMap_append, ← shows.refers]
      rfl
end

end

end Selector

end ScopedStyles
