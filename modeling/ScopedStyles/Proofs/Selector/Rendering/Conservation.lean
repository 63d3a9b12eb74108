import ScopedStyles.Proofs.Selector.Reading
import ScopedStyles.Proofs.Selector.Rendering.Meaning

/-!
What annotating keeps of a text. The segments of a selector spell what its pieces print; and the
pieces of a properly nested selector, without wrappers and switches, print all of it but the white
space that is trimmed off the selectors in arguments. So the segments of a list, joined by commas,
are the list but for white space.
-/

namespace ScopedStyles

open Text Selector

namespace Selector

/-! ## Texts without their white space -/

def unblanked (text : List Char) : List Char :=
  text.filter (!isBlank ·)

section

variable {text rest blanks : List Char} {items : List (List Char)}

@[simp] theorem unblanked_append : unblanked (text ++ rest) = unblanked text ++ unblanked rest :=
  List.filter_append text rest

theorem unblanked_cons_congr (same : unblanked text = unblanked rest) (character : Char) :
    unblanked (character :: text) = unblanked (character :: rest) := by
  rw [← List.singleton_append, unblanked_append, same, ← unblanked_append, List.singleton_append]

theorem unblanked_append_congr (same : unblanked text = unblanked rest) (front : List Char) :
    unblanked (front ++ text) = unblanked (front ++ rest) := by
  rw [unblanked_append, same, ← unblanked_append]

theorem unblanked_blanks (blank : ∀ character ∈ blanks, isBlank character) :
    unblanked blanks = [] := by
  simpa [unblanked] using blank

@[simp] theorem unblanked_trimCharacters (text : List Char) :
    unblanked (trimCharacters text) = unblanked text := by
  obtain ⟨front, back, whole, blankFront, blankBack⟩ := trimCharacters_split text
  generalize trimCharacters text = kept at *
  rw [whole, unblanked_append, unblanked_append, unblanked_blanks blankFront,
    unblanked_blanks blankBack, List.append_nil, List.nil_append]

theorem unblanked_intercalate (items : List (List Char)) :
    unblanked ([','].intercalate items) = [','].intercalate (items.map unblanked) := by
  have comma : unblanked [','] = [','] := by decide
  induction items with
  | nil => rfl
  | cons first items induction =>
    cases items with
    | nil => rw [List.intercalate_singleton, List.map_singleton, List.intercalate_singleton]
    | cons second items =>
      rw [List.intercalate_cons_cons, unblanked_append, unblanked_append, comma, induction]
      simp [List.intercalate_cons_cons]

theorem intercalate_cutCommas (state : CutState) (text : List Char) :
    [','].intercalate (cutCommas state text) = text := by
  induction text generalizing state with
  | nil => rfl
  | cons character text induction =>
    rw [cutCommas]
    split
    · rename_i separates
      have isComma : character = ',' := by simpa using (Bool.and_eq_true_iff.mp separates).1
      obtain ⟨first, others, cut⟩ :=
        List.exists_cons_of_ne_nil (cutCommas_ne_nil state text)
      have whole := induction state
      rw [cut] at whole ⊢
      rw [List.intercalate_cons_cons, whole, isComma]
      rfl
    · have whole := induction (state.next character)
      obtain ⟨first, others, cut⟩ :=
        List.exists_cons_of_ne_nil (cutCommas_ne_nil (state.next character) text)
      rw [cut] at whole ⊢
      dsimp only
      rw [← whole]
      cases others with
      | nil => rw [List.intercalate_singleton, List.intercalate_singleton]
      | cons second others =>
        rw [List.intercalate_cons_cons, List.intercalate_cons_cons]
        rfl

end

/-! ## Segments as they were written -/

/-- The text of a segment as it was written: a name stands as spelled behind its sigil. -/
def Segment.spelled : Segment → List Char
  | .text copied => copied.toList
  | .name sigil _ spelling _ => sigil.character :: spelling.toList

def spelled (segments : List Segment) : List Char :=
  segments.flatMap Segment.spelled

theorem spelled_append (first second : List Segment) :
    spelled (first ++ second) = spelled first ++ spelled second :=
  List.flatMap_append ..

@[simp] theorem spelled_textSegments (text : List Char) : spelled (textSegments text) = text := by
  unfold textSegments
  split
  · rename_i isEmpty
    rw [List.isEmpty_iff.mp isEmpty]
    rfl
  · simp [spelled, Segment.spelled]

@[simp] theorem spelled_nameSegment (mode : Mode) (sigil : Sigil) (spelling : List Char) :
    spelled [nameSegment mode sigil spelling] = (Piece.name sigil spelling).print id := by
  simp [spelled, nameSegment, Segment.spelled, Piece.print]

mutual
/-- Behind a piece, the segments and the text carried on spell what the piece prints. -/
theorem spelled_piece {mode behind : Mode} {inWrapper : Bool} {text carried : List Char}
    {segments : List Segment} : (piece : Piece) →
      annotatePiece mode inWrapper text piece = some (segments, carried, behind) →
        spelled segments ++ carried = text ++ piece.print id
  | .verbatim copied, annotated => by
    cases annotated
    rfl
  | .name sigil spelling, annotated => by
    cases annotated
    rw [spelled_append, spelled_textSegments, spelled_nameSegment, List.append_nil]
  | .switch isGlobal, annotated => by
    rw [annotatePiece] at annotated
    split at annotated
    · cases annotated
    · cases annotated
      rw [Piece.print, List.append_nil]
      rfl
  | .wrapper isGlobal arguments, annotated => by
    rw [annotatePiece] at annotated
    split at annotated
    · cases annotated
    · obtain ⟨inside, annotatedInside, equal⟩ := Option.map_eq_some_iff.mp annotated
      cases equal
      rw [spelled_append, spelled_textSegments, spelled_list arguments annotatedInside,
        List.append_nil, Piece.print]
  | .functional name arguments, annotated => by
    rw [annotatePiece] at annotated
    obtain ⟨inside, annotatedInside, equal⟩ := Option.map_eq_some_iff.mp annotated
    cases equal
    rw [spelled_append, spelled_textSegments, spelled_list arguments annotatedInside, Piece.print]
    simp

theorem spelled_pieces {mode : Mode} {inWrapper : Bool} {text : List Char}
    {segments : List Segment} : (pieces : List Piece) →
      annotatePieces mode inWrapper text pieces = some segments →
        spelled segments = text ++ printPieces id pieces
  | [], annotated => by
    obtain rfl := Option.some.inj annotated
    rw [spelled_textSegments, printPieces, List.append_nil]
  | first :: rest, annotated => by
    rw [annotatePieces] at annotated
    split at annotated
    · cases annotated
    · rename_i annotatedFirst
      obtain ⟨others, annotatedRest, rfl⟩ := Option.map_eq_some_iff.mp annotated
      rw [spelled_append, spelled_pieces rest annotatedRest, ← List.append_assoc,
        spelled_piece first annotatedFirst, printPieces, List.append_assoc]

theorem spelled_list {mode : Mode} {inWrapper : Bool} {segments : List Segment} :
    (items : List (List Piece)) → annotateList mode inWrapper items = some segments →
      spelled segments = [','].intercalate (printItems id items)
  | [], annotated => by
    obtain rfl := Option.some.inj annotated
    rfl
  | first :: rest, annotated => by
    rw [annotateList] at annotated
    split at annotated
    · rename_i annotatedFirst annotatedRest
      obtain rfl := Option.some.inj annotated
      rw [spelled_append, spelled_pieces first annotatedFirst, spelled_rest rest annotatedRest,
        intercalate_printItems, List.nil_append]
    · cases annotated

theorem spelled_rest {mode : Mode} {inWrapper : Bool} {segments : List Segment} :
    (items : List (List Piece)) → annotateRest mode inWrapper items = some segments →
      spelled segments = (printItems id items).flatMap (',' :: ·)
  | [], annotated => by
    obtain rfl := Option.some.inj annotated
    rfl
  | first :: rest, annotated => by
    rw [annotateRest] at annotated
    split at annotated
    · rename_i annotatedFirst annotatedRest
      obtain rfl := Option.some.inj annotated
      have comma : spelled [.text ","] = [','] := rfl
      rw [← List.singleton_append, List.append_assoc, spelled_append, comma, spelled_append,
        spelled_pieces first annotatedFirst, spelled_rest rest annotatedRest, printItems,
        List.flatMap_cons]
      rfl
    · cases annotated
end

/-! ## Pieces as they were written -/

/-- What the pieces of a text print is the text but for white space. -/
def PrintsWhole (text : List Char) (pieces : List Piece) : Prop :=
  ∀ (closers : List Char) (depth : Nat) (final : Standing),
    (Standing.bare closers depth).runWithin text = some final → final.IsClosed →
      unblanked (printPieces id pieces) = unblanked text

namespace PrintsWhole

section

variable {item rest span after : List Char} {pieces : List Piece} {character : Char}

theorem nil : PrintsWhole [] [] :=
  fun _ _ _ _ _ => rfl

theorem of_nil (behind : PrintsWhole [] pieces) : unblanked (printPieces id pieces) = [] :=
  behind [] 0 (.bare [] 0) rfl ⟨rfl, .inl rfl⟩

theorem copied (behind : PrintsWhole after pieces) (copies : Echo.Copied span after) :
    PrintsWhole (span ++ after) (.verbatim span :: pieces) := by
  intro closers depth final runs closed
  rw [printPieces, Piece.print]
  refine unblanked_append_congr ?_ span
  rcases copies closers depth final runs closed with
    ⟨rfl, _⟩ | ⟨closersBehind, depthBehind, passes, _⟩
  · exact behind.of_nil
  · rw [Standing.runWithin_append, passes, Option.bind_some] at runs
    exact behind closersBehind depthBehind final runs closed

theorem name {sigil : Sigil} (isSigil : sigil = if character = '.' then .dot else .hash)
    (starts : (character = '.' || character = '#') && (rest.head?.map startsName).getD false)
    (behind : PrintsWhole (spanName rest).2 pieces) :
    PrintsWhole (character :: rest) (.name sigil (spanName rest).1 :: pieces) := by
  intro closers depth final runs closed
  have sameMark : sigil.character = character := by
    have isMark : character = '.' ∨ character = '#' := by
      simpa using (Bool.and_eq_true_iff.mp starts).1
    rw [isSigil]
    rcases isMark with rfl | rfl <;> rfl
  have whole : character :: rest = character :: (spanName rest).1 ++ (spanName rest).2 := by
    rw [List.cons_append, spanName_append]
  rw [printPieces, Piece.print, sameMark, whole]
  refine unblanked_append_congr ?_ _
  obtain ⟨escaped, runsName, ends⟩ := runWithin_spanName rest closers depth
  cases escaped with
  | true =>
    rw [ends rfl] at behind ⊢
    exact behind.of_nil
  | false =>
    rw [Standing.runWithin_cons, Standing.stepWithin_neutral (not_special_of_starts starts),
      Option.bind_some, ← spanName_append rest, Standing.runWithin_append, runsName,
      Option.bind_some] at runs
    exact behind closers depth final runs closed

theorem argument (whole : PrintsWhole (trimCharacters item) pieces) {depth : Nat}
    {last : Standing} (runs : (Standing.bare [] depth).runWithin item = some last)
    (closed : last.IsClosed) : unblanked (printPieces id pieces) = unblanked item := by
  obtain ⟨middle, runsTrimmed, resembles⟩ := exists_run_trimCharacters runs
  rw [whole [] depth middle runsTrimmed (resembles.isClosed closed), unblanked_trimCharacters]

theorem arguments {inside inner : List Char} {piecesOf : List Char → List Piece}
    (runs : (Standing.bare [] 0).run inside = some (.bare inner 0))
    (each : ∀ item ∈ commaItems inside, PrintsWhole (trimCharacters item) (piecesOf item)) :
    unblanked ([','].intercalate
      ((commaItems inside).map fun item => printPieces id (piecesOf item))) = unblanked inside := by
  have cuts := Standing.items_cutCommas (Standing.covered_bare [] 0) runs
  have closed : (Standing.bare inner 0).IsClosed := ⟨rfl, .inl rfl⟩
  have joined : [','].intercalate (commaItems inside) = inside := intercalate_cutCommas _ _
  conv_rhs => rw [← joined]
  rw [unblanked_intercalate, unblanked_intercalate, List.map_map]
  refine congrArg _ (List.map_congr_left fun item member => ?_)
  obtain ⟨depth, last, runsItem, closedItem, _⟩ :=
    Standing.exists_run_of_mem cuts ⟨0, rfl⟩ closed member
  exact (each item member).argument runsItem closedItem

theorem functional {piecesOf : List Char → List Piece}
    (group : (spanName rest).2.head? = some '(')
    (each : ∀ item ∈ Piece.argumentItems (spanArguments (spanName rest).2).1,
      PrintsWhole (trimCharacters item) (piecesOf item))
    (behind : PrintsWhole (spanArguments (spanName rest).2).2 pieces) :
    PrintsWhole (':' :: rest) (.functional (spanName rest).1
      ((Piece.argumentItems (spanArguments (spanName rest).2).1).map piecesOf) :: pieces) := by
  intro closers depth final runs closed
  obtain ⟨_, inside, after, inner, closersBehind, isGroup, runsInside, _, runsAfter⟩ :=
    Echo.exists_inside group runs closed
  have spans := Standing.spanArguments_group runsInside after
  have whole : ':' :: rest =
      ':' :: ((spanName rest).1 ++ ('(' :: inside ++ ')' :: after)) := by
    rw [← isGroup, spanName_append]
  rw [isGroup, spans] at each behind ⊢
  rw [argumentItems_group] at each ⊢
  have printsAfter := behind closersBehind depth final runsAfter closed
  have printsGroup : unblanked ([','].intercalate ((commaItems inside).map fun item =>
      printPieces id (piecesOf item)) ++ ')' :: printPieces id pieces) =
        unblanked (inside ++ ')' :: after) := by
    rw [unblanked_append, unblanked_append, arguments runsInside each,
      unblanked_cons_congr printsAfter]
  rw [whole, Echo.printPieces_functional]
  exact unblanked_cons_congr (unblanked_append_congr (unblanked_cons_congr printsGroup '(') _) ':'

end

end PrintsWhole

/-- By the cases of cutting into pieces. -/
theorem printsWhole_read {text : List Char} (unscoped : .scope ∉ selectorWords (Piece.read text)) :
    PrintsWhole text (Piece.read text) := by
  fun_induction Piece.read text with
  | case1 => exact .nil
  | case2 rest induction =>
    have prints := (induction (unscoped_behind unscoped)).copied (Echo.copied_backslash rest)
    rwa [List.cons_append, List.take_append_drop] at prints
  | case3 character rest _ opens span induction =>
    have prints := (induction (unscoped_behind unscoped)).copied (Echo.copied_shield opens)
    rwa [List.cons_append, spanShield_append] at prints
  | case4 character rest _ _ starts span induction =>
    exact .name rfl starts (induction (unscoped_behind unscoped))
  | case5 character rest _ _ _ element name arguments induction =>
    obtain ⟨rfl, isColon⟩ : character = ':' ∧ rest.head? = some ':' := by simpa using element
    obtain ⟨rest, rfl⟩ := List.head?_eq_some_iff.mp isColon
    have prints := (induction (unscoped_behind unscoped)).copied Echo.copied_element
    rwa [List.append_assoc, spanArguments_append, List.cons_append, List.cons_append,
      spanName_append] at prints
  | case6 => exact absurd List.mem_cons_self unscoped
  | case7 => exact absurd List.mem_cons_self unscoped
  | case8 rest name arguments items noScope functional _ _ _ noElement inside induction =>
    obtain ⟨group, _⟩ := Bool.and_eq_true_iff.mp functional
    have sameItems : (items.attach.map fun item => Piece.read (trimCharacters item.val)) =
        items.map fun item => Piece.read (trimCharacters item) := by simp
    rw [sameItems] at unscoped ⊢
    have unscopedItem := unscoped_item unscoped
    exact .functional ((isEmpty_spanArguments _).mp (by simpa using group))
      (fun item member => inside ⟨item, member⟩ (unscopedItem item member))
      (induction (unscoped_behind unscoped))
  | case9 rest name arguments noScope verbatim _ _ _ noElement induction =>
    have prints := (induction (unscoped_behind unscoped)).copied
      (Echo.copied_pseudo (by simpa using noElement) (opening?_of_verbatim noScope verbatim)
        noScope)
    rwa [List.append_assoc, spanArguments_append, List.cons_append, spanName_append] at prints
  | case10 character rest noBackslash noShield noName _ noColon induction =>
    exact (induction (unscoped_behind unscoped)).copied
      (Echo.copied_skip noBackslash noShield noName noColon)

/-! ## Wrappers and switches -/

mutual
theorem setsMode_of_scope_piece : (piece : Piece) → .scope ∈ piece.words →
    ∃ lexeme ∈ piece.lexemes, lexeme.setsMode
  | .verbatim _, isScope => nomatch isScope
  | .name _ _, isScope => by simp [Piece.words] at isScope
  | .switch isGlobal, _ => ⟨.switch isGlobal, List.mem_cons_self, rfl⟩
  | .wrapper isGlobal _, _ => ⟨.opens (some isGlobal), List.mem_cons_self, rfl⟩
  | .functional _ arguments, isScope => by
    obtain ⟨lexeme, member, sets⟩ := setsMode_of_scope_list arguments isScope
    exact ⟨lexeme, List.mem_cons_of_mem _ (List.mem_append_left _ member), sets⟩

theorem setsMode_of_scope : (pieces : List Piece) → .scope ∈ selectorWords pieces →
    ∃ lexeme ∈ selectorLexemes pieces, lexeme.setsMode
  | [], isScope => nomatch isScope
  | first :: rest, isScope => by
    rcases List.mem_append.mp isScope with isScope | isScope
    · obtain ⟨lexeme, member, sets⟩ := setsMode_of_scope_piece first isScope
      exact ⟨lexeme, List.mem_append_left _ member, sets⟩
    · obtain ⟨lexeme, member, sets⟩ := setsMode_of_scope rest isScope
      exact ⟨lexeme, List.mem_append_right _ member, sets⟩

theorem setsMode_of_scope_list : (items : List (List Piece)) → .scope ∈ listWords items →
    ∃ lexeme ∈ listLexemes items, lexeme.setsMode
  | [], isScope => nomatch isScope
  | first :: rest, isScope => by
    rcases List.mem_append.mp isScope with isScope | isScope
    · obtain ⟨lexeme, member, sets⟩ := setsMode_of_scope first isScope
      exact ⟨lexeme, List.mem_append_left _ member, sets⟩
    · obtain ⟨lexeme, member, sets⟩ := setsMode_of_scope_rest rest isScope
      exact ⟨lexeme, List.mem_append_right _ member, sets⟩

theorem setsMode_of_scope_rest : (items : List (List Piece)) → .scope ∈ listWords items →
    ∃ lexeme ∈ restLexemes items, lexeme.setsMode
  | [], isScope => nomatch isScope
  | first :: rest, isScope => by
    rcases List.mem_append.mp isScope with isScope | isScope
    · obtain ⟨lexeme, member, sets⟩ := setsMode_of_scope first isScope
      exact ⟨lexeme, List.mem_cons_of_mem _ (List.mem_append_left _ member), sets⟩
    · obtain ⟨lexeme, member, sets⟩ := setsMode_of_scope_rest rest isScope
      exact ⟨lexeme, List.mem_cons_of_mem _ (List.mem_append_right _ member), sets⟩
end

/-- No wrapper and no switch is read where none is in the text, if all its white space is of
ASCII. -/
theorem unscoped_of_lex {text : List Char} (balanced : isBalanced text) (narrow : isNarrow text)
    (unset : ∀ lexeme ∈ lex [] text, ¬ lexeme.setsMode) :
    ∀ item ∈ commaItems text, .scope ∉ selectorWords (Piece.read item) := by
  intro item member isScope
  have inList : .scope ∈ listWords ((commaItems text).map Piece.read) := by
    rw [listWords_eq_flatMap, List.flatMap_map]
    exact List.mem_flatMap.mpr ⟨item, member, isScope⟩
  obtain ⟨lexeme, isLexeme, sets⟩ := setsMode_of_scope_list _ inList
  rw [← lex_eq_listLexemes balanced narrow] at isLexeme
  exact unset lexeme isLexeme sets

/-! ## Selector lists -/

/-- The segments of the selectors of a list spell what their pieces print. -/
theorem map_spelled {mode : Mode} {items : List (List Char)} {lists : List (List Segment)}
    (annotated : items.mapM (fun item =>
      annotatePieces mode mode.isBlock [] (Piece.read item)) = some lists) :
    lists.map spelled = items.map fun item => printPieces id (Piece.read item) := by
  induction items generalizing lists with
  | nil =>
    obtain rfl := Option.some.inj annotated
    rfl
  | cons first rest induction =>
    rw [List.mapM_cons] at annotated
    obtain ⟨segments, annotatedFirst, annotated⟩ := Option.bind_eq_some_iff.mp annotated
    obtain ⟨others, annotatedRest, same⟩ := Option.bind_eq_some_iff.mp annotated
    obtain rfl := Option.some.inj same
    rw [List.map_cons, List.map_cons, spelled_pieces _ annotatedFirst, List.nil_append,
      induction annotatedRest]

end Selector

/-- The text of an annotated selector as it was written. -/
def AnnotatedSelector.spelled (selector : AnnotatedSelector) : List Char :=
  Selector.spelled selector.segments

/-- A properly nested selector list without wrappers and switches is annotated, and its selectors
are spelled as it is, but for white space. -/
theorem annotating_keeps_text {text : String} (mode : Mode)
    (nested : isProperlyNested text.toList)
    (unscoped : ∀ item ∈ commaItems text.toList, .scope ∉ selectorWords (Piece.read item)) :
    ∃ selectors, annotateSelectors text mode = .ok selectors ∧
      unblanked ([','].intercalate (selectors.map AnnotatedSelector.spelled)) =
        unblanked text.toList := by
  obtain ⟨lists, annotated, _⟩ := exists_annotated mode unscoped
  refine ⟨_, annotateSelectors_of_mapM annotated, ?_⟩
  obtain ⟨final, closed, cuts⟩ := items_commaItems nested
  have prints : ∀ item ∈ commaItems text.toList,
      unblanked (printPieces id (Piece.read item)) = unblanked item := by
    intro item member
    obtain ⟨depth, last, runs, closedItem, _⟩ :=
      Standing.exists_run_of_mem cuts ⟨_, rfl⟩ closed member
    exact printsWhole_read (unscoped item member) [] depth last runs closedItem
  have joined : [','].intercalate (commaItems text.toList) = text.toList :=
    intercalate_cutCommas _ _
  have spelledLists :
      (lists.map AnnotatedSelector.mk).map AnnotatedSelector.spelled = lists.map spelled := by
    rw [List.map_map]
    rfl
  rw [spelledLists, map_spelled annotated, unblanked_intercalate, List.map_map]
  calc [','].intercalate ((commaItems text.toList).map fun item =>
        unblanked (printPieces id (Piece.read item)))
      = [','].intercalate ((commaItems text.toList).map unblanked) :=
        congrArg _ (List.map_congr_left prints)
    _ = unblanked text.toList := by rw [← unblanked_intercalate, joined]

/-- Escapes, strings, attribute brackets, arguments that are not scanned, and white space around
selectors in arguments at two depths. -/
def spacedList : String :=
  " .a\\31  b[c=')' i] :not( .d\\, , :is(#e .f ) ),::part( g , h ):nth-child( 2n )>.\\--i "

theorem spacedList_keeps_text :
    isProperlyNested spacedList.toList ∧
      (∀ item ∈ commaItems spacedList.toList, .scope ∉ selectorWords (Piece.read item)) ∧
      ((annotateSelectors spacedList .purely).toOption.map fun selectors =>
        selectors.map AnnotatedSelector.spelled) =
          some [" .a\\31  b[c=')' i] :not(.d\\,,:is(#e .f))".toList,
            "::part( g , h ):nth-child( 2n )>.\\--i ".toList] ∧
      ∃ selectors, annotateSelectors spacedList .purely = .ok selectors ∧
        unblanked ([','].intercalate (selectors.map AnnotatedSelector.spelled)) =
          unblanked spacedList.toList := by
  have balanced : isBalanced spacedList.toList := by decide +kernel
  have nested := isProperlyNested_of_isBalanced balanced
  have unscoped := unscoped_of_lex balanced (by decide +kernel) (by decide +kernel)
  exact ⟨nested, unscoped, by decide +kernel, annotating_keeps_text .purely nested unscoped⟩

/-- White space outside ASCII belongs to the name of a pseudo-class. Trimmed off the argument of
another one, it leaves a switch, and nothing of the pseudo-class is kept. -/
theorem wide_pseudo_class_is_dropped :
    isBalanced ":not(:global\u00a0)".toList ∧
      (∀ lexeme ∈ lex [] ":not(:global\u00a0)".toList, ¬ lexeme.setsMode) ∧
      ((annotateSelectors ":global\u00a0" .locally).toOption.map fun selectors =>
        selectors.map AnnotatedSelector.spelled) = some [":global\u00a0".toList] ∧
      ((annotateSelectors ":not(:global\u00a0)" .locally).toOption.map fun selectors =>
        selectors.map AnnotatedSelector.spelled) = some [":not()".toList] ∧
      unblanked ":not()".toList ≠ unblanked ":not(:global\u00a0)".toList := by
  decide +kernel

end ScopedStyles
