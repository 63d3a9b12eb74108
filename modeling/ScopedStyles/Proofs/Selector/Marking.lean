import ScopedStyles.Proofs.Selector.Reading

/-!
The mode gate: which selector lists are refused, and which of their names are local. The annotator
carries a mode along and hands it down to arguments; the layers that are open around a place say the
same of it.
-/

namespace ScopedStyles

open Text Selector

namespace Selector

/-! ## Layers behind pieces -/

def layersAfter (layers : List Layer) (lexemes : List Lexeme) : List Layer :=
  lexemes.foldl layersBehind layers

section

variable {start : Mode} {layers : List Layer}

theorem layersAfter_append (first second : List Lexeme) :
    layersAfter layers (first ++ second) = layersAfter (layersAfter layers first) second :=
  List.foldl_append

/-- Behind complete selectors the open layers are the same, but for the last switch. -/
def Stays (layer : Layer) (outer : List Layer) (lexemes : List Lexeme) : Prop :=
  ∃ switched, layersAfter (layer :: outer) lexemes = ⟨layer.wraps, switched⟩ :: outer

theorem Stays.nil (layer : Layer) (outer : List Layer) : Stays layer outer [] :=
  ⟨layer.switched, rfl⟩

theorem Stays.append {layer : Layer} {outer : List Layer} {first second : List Lexeme}
    (stays : Stays layer outer first)
    (staysBehind : ∀ switched, Stays ⟨layer.wraps, switched⟩ outer second) :
    Stays layer outer (first ++ second) := by
  obtain ⟨middle, same⟩ := stays
  obtain ⟨switched, sameBehind⟩ := staysBehind middle
  exact ⟨switched, by rw [layersAfter_append, same, sameBehind]⟩

theorem layersAfter_arguments {wraps : Option Bool} {inside : List Lexeme}
    (stays : Stays ⟨wraps, none⟩ layers inside) :
    layersAfter layers (.opens wraps :: inside ++ [.closes]) = layers := by
  obtain ⟨switched, same⟩ := stays
  rw [layersAfter_append, layersAfter, List.foldl_cons]
  exact congrArg (List.drop 1) same

mutual
theorem stays_piece (layer : Layer) (outer : List Layer) :
    (piece : Piece) → Stays layer outer piece.lexemes
  | .verbatim _ => .nil layer outer
  | .name .. => ⟨layer.switched, rfl⟩
  | .switch isGlobal => ⟨some isGlobal, rfl⟩
  | .wrapper isGlobal arguments =>
    ⟨layer.switched, layersAfter_arguments (stays_list ⟨some isGlobal, none⟩ _ arguments)⟩
  | .functional _ arguments =>
    ⟨layer.switched, layersAfter_arguments (stays_list ⟨none, none⟩ _ arguments)⟩

theorem stays_selector (layer : Layer) (outer : List Layer) :
    (pieces : List Piece) → Stays layer outer (selectorLexemes pieces)
  | [] => .nil layer outer
  | first :: rest => (stays_piece layer outer first).append fun _ => stays_selector _ outer rest

theorem stays_list (layer : Layer) (outer : List Layer) :
    (items : List (List Piece)) → Stays layer outer (listLexemes items)
  | [] => .nil layer outer
  | first :: rest => (stays_selector layer outer first).append fun _ => stays_rest _ outer rest

theorem stays_rest (layer : Layer) (outer : List Layer) :
    (items : List (List Piece)) → Stays layer outer (restLexemes items)
  | [] => .nil layer outer
  | first :: rest => (stays_selector ⟨layer.wraps, none⟩ outer first).append fun _ =>
      stays_rest _ outer rest
end

end

/-! ## Marks of a row of lexemes -/

/-- What the layers say of a row of lexemes: nothing when a wrapper or a switch stands where it may
not, and the marks of its names otherwise. -/
def settle (start : Mode) (layers : List Layer) (lexemes : List Lexeme) : Option (List Mark) :=
  if isNested start layers lexemes then none else some (marks start layers lexemes)

section

variable {start : Mode} {layers : List Layer}

theorem isNested_append (first second : List Lexeme) :
    isNested start layers (first ++ second) =
      (isNested start layers first || isNested start (layersAfter layers first) second) := by
  induction first generalizing layers with
  | nil => rfl
  | cons lexeme first induction =>
    rw [List.cons_append, isNested, isNested, induction, Bool.or_assoc]
    rfl

theorem marks_append (first second : List Lexeme) :
    marks start layers (first ++ second) =
      marks start layers first ++ marks start (layersAfter layers first) second := by
  induction first generalizing layers with
  | nil => rfl
  | cons lexeme first induction =>
    cases lexeme <;> simp only [List.cons_append, marks, induction] <;> rfl

theorem settle_append (first second : List Lexeme) :
    settle start layers (first ++ second) =
      (settle start layers first).bind fun before =>
        (settle start (layersAfter layers first) second).map (before ++ ·) := by
  unfold settle
  rw [isNested_append, marks_append]
  cases isNested start layers first <;>
    cases isNested start (layersAfter layers first) second <;> rfl

end

/-! ## Annotating pieces -/

def segmentMarks (segments : List Segment) : List Mark :=
  segments.filterMap Segment.mark?

@[simp] theorem segmentMarks_append (first second : List Segment) :
    segmentMarks (first ++ second) = segmentMarks first ++ segmentMarks second :=
  List.filterMap_append

@[simp] theorem segmentMarks_text (text : List Char) : segmentMarks (textSegments text) = [] := by
  unfold textSegments
  split <;> rfl

@[simp] theorem segmentMarks_comma (text : String) (segments : List Segment) :
    segmentMarks (.text text :: segments) = segmentMarks segments := rfl

/-- The mode that is carried along, and whether it is inside a wrapper, are what the layers say. -/
structure Governs (start : Mode) (layers : List Layer) (mode : Mode) (inWrapper : Bool) : Prop where
  isLocal : mode.isLocal = isLocalIn start layers
  isSealed : inWrapper = isSealed start layers

section

variable {start mode : Mode} {layers : List Layer} {inWrapper : Bool}

theorem governs_start (start : Mode) : Governs start [⟨none, none⟩] start start.isBlock :=
  ⟨rfl, (Bool.or_false _).symm⟩

theorem governs_wrapper (start : Mode) (layers : List Layer) (isGlobal : Bool) :
    Governs start (⟨some isGlobal, none⟩ :: layers) (.switched isGlobal) true := by
  refine ⟨?_, ?_⟩
  · cases isGlobal <;> rfl
  · simp [Selector.isSealed]

theorem Governs.functional (governs : Governs start layers mode inWrapper) :
    Governs start (⟨none, none⟩ :: layers) mode inWrapper :=
  ⟨governs.isLocal, governs.isSealed⟩

theorem Governs.switch {layer : Layer} {outer : List Layer}
    (governs : Governs start (layer :: outer) mode false) (isGlobal : Bool) :
    Governs start (⟨layer.wraps, some isGlobal⟩ :: outer) (.switched isGlobal) false := by
  refine ⟨?_, governs.isSealed⟩
  have noWrapper : (layer :: outer).findSome? Layer.wraps = none := by
    have unsealed := governs.isSealed
    simp only [Selector.isSealed, Bool.false_eq, Bool.or_eq_false_iff, List.any_eq_false,
      Option.not_isSome_iff_eq_none] at unsealed
    exact List.findSome?_eq_none_iff.mpr unsealed.2
  have noWrapperBehind :
      (Layer.mk layer.wraps (some isGlobal) :: outer).findSome? Layer.wraps = none := noWrapper
  rw [isLocalIn, noWrapperBehind]
  cases isGlobal <;> rfl

theorem Governs.behind {layer : Layer} {outer : List Layer} {piece : Piece}
    {segments : List Segment} {text textBehind : List Char} {modeBehind : Mode}
    (governs : Governs start (layer :: outer) mode inWrapper)
    (annotated : annotatePiece mode inWrapper text piece =
      some (segments, textBehind, modeBehind)) :
    Governs start (layersAfter (layer :: outer) piece.lexemes) modeBehind inWrapper := by
  cases piece with
  | verbatim _ =>
    cases annotated
    exact governs
  | name _ _ =>
    cases annotated
    exact governs
  | switch isGlobal =>
    cases inWrapper with
    | true => cases annotated
    | false =>
      cases annotated
      exact governs.switch isGlobal
  | wrapper isGlobal arguments =>
    rw [Piece.lexemes, layersAfter_arguments (stays_list _ _ arguments)]
    rw [annotatePiece] at annotated
    split at annotated
    · cases annotated
    · obtain ⟨_, _, equal⟩ := Option.map_eq_some_iff.mp annotated
      cases equal
      exact governs
  | functional _ arguments =>
    rw [Piece.lexemes, layersAfter_arguments (stays_list _ _ arguments)]
    rw [annotatePiece] at annotated
    obtain ⟨_, _, equal⟩ := Option.map_eq_some_iff.mp annotated
    cases equal
    exact governs

theorem settle_refused {lexeme : Lexeme} (sets : lexeme.setsMode)
    (refuses : Selector.isSealed start layers) (rest : List Lexeme) :
    settle start layers (lexeme :: rest) = none := by
  simp [settle, isNested, sets, refuses]

theorem settle_arguments {wraps : Option Bool} {inside : List Lexeme}
    (passes : ((Lexeme.opens wraps).setsMode && Selector.isSealed start layers) = false) :
    settle start layers (.opens wraps :: inside ++ [.closes]) =
      settle start (⟨wraps, none⟩ :: layers) inside := by
  have closing : ∀ behind : List Layer, settle start behind [.closes] = some [] := fun _ => rfl
  have opening : settle start layers (.opens wraps :: inside ++ [.closes]) =
      settle start (⟨wraps, none⟩ :: layers) (inside ++ [.closes]) := by
    rw [settle, List.cons_append, isNested, passes, Bool.false_or]
    rfl
  rw [opening, settle_append, closing]
  cases settle start (⟨wraps, none⟩ :: layers) inside <;> simp

mutual
theorem annotatePiece_marks {start mode : Mode} {inWrapper : Bool} {layer : Layer}
    {outer : List Layer} (governs : Governs start (layer :: outer) mode inWrapper)
    (text : List Char) : (piece : Piece) →
      (annotatePiece mode inWrapper text piece).map (fun result => segmentMarks result.1) =
        settle start (layer :: outer) piece.lexemes
  | .verbatim _ => rfl
  | .name sigil spelling => by
    have isMark : segmentMarks [nameSegment mode sigil spelling] =
        [⟨sigil, trimCharacters spelling, isLocalIn start (layer :: outer)⟩] := by
      simp [segmentMarks, nameSegment, Segment.mark?, governs.isLocal]
    rw [annotatePiece, Option.map_some, segmentMarks_append, segmentMarks_text, isMark]
    rfl
  | .switch isGlobal => by
    rw [annotatePiece, Piece.lexemes]
    cases inWrapper with
    | true => exact (settle_refused rfl governs.isSealed.symm []).symm
    | false => simp [settle, isNested, marks, ← governs.isSealed, segmentMarks]
  | .wrapper isGlobal arguments => by
    rw [annotatePiece, Piece.lexemes]
    cases inWrapper with
    | true => exact (settle_refused rfl governs.isSealed.symm _).symm
    | false =>
      have passes : ((Lexeme.opens (some isGlobal)).setsMode &&
          Selector.isSealed start (layer :: outer)) = false := governs.isSealed.symm
      rw [settle_arguments passes,
        ← annotateList_marks (governs_wrapper start (layer :: outer) isGlobal) arguments,
        if_neg Bool.false_ne_true, Option.map_map]
      congr 1
      funext inside
      simp
  | .functional name arguments => by
    rw [annotatePiece, Piece.lexemes, settle_arguments (by rfl),
      ← annotateList_marks governs.functional arguments, Option.map_map]
    congr 1
    funext inside
    simp

theorem annotatePieces_marks {start mode : Mode} {inWrapper : Bool} {layer : Layer}
    {outer : List Layer} (governs : Governs start (layer :: outer) mode inWrapper)
    (text : List Char) : (pieces : List Piece) →
      (annotatePieces mode inWrapper text pieces).map segmentMarks =
        settle start (layer :: outer) (selectorLexemes pieces)
  | [] => by
    rw [annotatePieces, Option.map_some, segmentMarks_text]
    rfl
  | first :: rest => by
    have marksFirst := annotatePiece_marks governs text first
    rw [selectorLexemes, settle_append, annotatePieces, ← marksFirst]
    cases annotated : annotatePiece mode inWrapper text first with
    | none => rfl
    | some result =>
      obtain ⟨segments, textBehind, modeBehind⟩ := result
      have behind := governs.behind annotated
      obtain ⟨switched, same⟩ := stays_piece layer outer first
      rw [same] at behind ⊢
      have marksRest := annotatePieces_marks behind textBehind rest
      simp only [Option.map_some, Option.bind_some, ← marksRest, Option.map_map]
      congr 1
      funext others
      simp

theorem annotateList_marks {start mode : Mode} {inWrapper : Bool} {wraps : Option Bool}
    {outer : List Layer} (governs : Governs start (⟨wraps, none⟩ :: outer) mode inWrapper) :
    (items : List (List Piece)) →
      (annotateList mode inWrapper items).map segmentMarks =
        settle start (⟨wraps, none⟩ :: outer) (listLexemes items)
  | [] => rfl
  | first :: rest => by
    obtain ⟨switched, same⟩ := stays_selector ⟨wraps, none⟩ outer first
    rw [annotateList, listLexemes, settle_append, same,
      ← annotatePieces_marks governs [] first, ← annotateRest_marks governs switched rest]
    cases annotatePieces mode inWrapper [] first <;> cases annotateRest mode inWrapper rest <;> simp

theorem annotateRest_marks {start mode : Mode} {inWrapper : Bool} {wraps : Option Bool}
    {outer : List Layer} (governs : Governs start (⟨wraps, none⟩ :: outer) mode inWrapper)
    (switched : Option Bool) : (items : List (List Piece)) →
      (annotateRest mode inWrapper items).map segmentMarks =
        settle start (⟨wraps, switched⟩ :: outer) (restLexemes items)
  | [] => rfl
  | first :: rest => by
    have comma : settle start (⟨wraps, switched⟩ :: outer)
        (.comma :: (selectorLexemes first ++ restLexemes rest)) =
          settle start (⟨wraps, none⟩ :: outer) (selectorLexemes first ++ restLexemes rest) := rfl
    obtain ⟨switchedBehind, same⟩ := stays_selector ⟨wraps, none⟩ outer first
    rw [annotateRest, restLexemes, List.cons_append, comma, settle_append, same,
      ← annotatePieces_marks governs [] first, ← annotateRest_marks governs switchedBehind rest]
    cases annotatePieces mode inWrapper [] first <;> cases annotateRest mode inWrapper rest <;>
      simp
end

theorem annotateRest_eq_annotateList (items : List (List Piece)) :
    (annotateRest mode inWrapper items).map segmentMarks =
      (annotateList mode inWrapper items).map segmentMarks := by
  cases items with
  | nil => rfl
  | cons first rest =>
    rw [annotateRest, annotateList]
    cases annotatePieces mode inWrapper [] first <;> cases annotateRest mode inWrapper rest <;> simp

theorem mapM_annotatePieces (items : List (List Piece)) :
    (items.mapM (annotatePieces mode inWrapper [])).map (fun lists => lists.flatMap segmentMarks) =
      (annotateList mode inWrapper items).map segmentMarks := by
  induction items with
  | nil => rfl
  | cons first rest induction =>
    rw [← annotateRest_eq_annotateList] at induction
    rw [List.mapM_cons, annotateList]
    cases annotatePieces mode inWrapper [] first with
    | none => rfl
    | some segments =>
      cases lists : rest.mapM (annotatePieces mode inWrapper []) <;>
        cases others : annotateRest mode inWrapper rest <;> simp_all

end

end Selector

/-- A selector list is refused exactly when a wrapper or a switch stands inside a wrapper or in the
block of one; and otherwise its names are marked as the layers around them say. -/
theorem marks_annotateSelectors {text : String} (mode : Mode) (balanced : isBalanced text.toList)
    (narrow : isNarrow text.toList) :
    (annotateSelectors text mode).map annotatedMarks =
      if isNested mode [⟨none, none⟩] (lex [] text.toList) then .error ⟨trim text⟩
      else .ok (marks mode [⟨none, none⟩] (lex [] text.toList)) := by
  have settled := annotateList_marks (governs_start mode) ((commaItems text.toList).map Piece.read)
  rw [← mapM_annotatePieces, List.mapM_map, ← lex_eq_listLexemes balanced narrow, settle] at settled
  have sameSteps : (annotatePieces mode mode.isBlock [] ∘ Piece.read) =
      fun item => annotatePieces mode mode.isBlock [] (Piece.read item) := rfl
  rw [sameSteps] at settled
  unfold annotateSelectors
  cases annotated : (commaItems text.toList).mapM fun item =>
      annotatePieces mode mode.isBlock [] (Piece.read item) with
  | none =>
    rw [annotated] at settled
    split at settled
    · rename_i nested
      rw [if_pos nested]
      rfl
    · cases settled
  | some lists =>
    rw [annotated] at settled
    split at settled
    · cases settled
    · rename_i unnested
      rw [if_neg unnested, ← Option.some.inj settled]
      simp [Except.map, annotatedMarks, List.flatMap_map]
      rfl

/-- Names behind switches, in a wrapper, and in the arguments of other pseudo-classes. -/
def gated : String := ".a :not(:global .b, .c) .d, :global #e :is(.f, :local .g):LOCAL(.h)"

/-- A switch in the arguments of a pseudo-class inside a wrapper. -/
def wrapped : String := ".a :global(.b :is(:local .c))"

theorem gated_names_are_marked :
    (isBalanced gated.toList ∧ isNarrow gated.toList ∧
      (annotateSelectors gated .locally).map annotatedMarks =
        .ok [⟨.dot, ['a'], true⟩, ⟨.dot, ['b'], false⟩, ⟨.dot, ['c'], true⟩, ⟨.dot, ['d'], true⟩,
          ⟨.hash, ['e'], false⟩, ⟨.dot, ['f'], false⟩, ⟨.dot, ['g'], true⟩, ⟨.dot, ['h'], true⟩]) ∧
      isBalanced wrapped.toList ∧ isNarrow wrapped.toList ∧
        (annotateSelectors wrapped .locally).map annotatedMarks = .error ⟨wrapped⟩ := by
  have balanced : isBalanced gated.toList := by decide +kernel
  have narrow : isNarrow gated.toList := by decide +kernel
  have balancedWrapped : isBalanced wrapped.toList := by decide +kernel
  have narrowWrapped : isNarrow wrapped.toList := by decide +kernel
  have trimmed : trim wrapped = wrapped := by decide +kernel
  refine ⟨⟨balanced, narrow, ?_⟩, balancedWrapped, narrowWrapped, ?_⟩
  · rw [marks_annotateSelectors .locally balanced narrow, if_neg (by decide +kernel)]
    exact congrArg Except.ok (by decide +kernel)
  · rw [marks_annotateSelectors .locally balancedWrapped narrowWrapped,
      if_pos (by decide +kernel), trimmed]

/-- A class whose name is white space outside ASCII is trimmed away when it ends an argument, and
gets no mark. -/
theorem wide_class_is_trimmed :
    isBalanced ":not(.\u00a0)".toList ∧
      (annotateSelectors ":not(.\u00a0)" .locally).toOption.map annotatedMarks = some [] ∧
      isNested .locally [⟨none, none⟩] (lex [] ":not(.\u00a0)".toList) = false ∧
      marks .locally [⟨none, none⟩] (lex [] ":not(.\u00a0)".toList) = [⟨.dot, [], true⟩] := by
  decide +kernel

end ScopedStyles
