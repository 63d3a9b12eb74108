import ScopedStyles.Proofs.Selector.Passage
import ScopedStyles.Proofs.Selector.ProperNesting

/-!
The pieces of a selector list are its lexemes. The list is cut at its commas, its items are trimmed
and cut into pieces, and so are the arguments in it; the lexemes come from one pass over the text.
Both see the same classes, ids, switches and arguments, when the text is balanced and the white
space in it is that of ASCII.
-/

namespace ScopedStyles.Selector

open Text

/-! ## Lexemes of pieces -/

mutual
def Piece.lexemes : Piece → List Lexeme
  | .verbatim _ => []
  | .name sigil spelling => [.name sigil (trimCharacters spelling)]
  | .switch isGlobal => [.switch isGlobal]
  | .wrapper isGlobal arguments => .opens (some isGlobal) :: listLexemes arguments ++ [.closes]
  | .functional _ arguments => .opens none :: listLexemes arguments ++ [.closes]

def selectorLexemes : List Piece → List Lexeme
  | [] => []
  | first :: rest => first.lexemes ++ selectorLexemes rest

/-- The lexemes of a list of selectors, with a comma between any two. -/
def listLexemes : List (List Piece) → List Lexeme
  | [] => []
  | first :: rest => selectorLexemes first ++ restLexemes rest

def restLexemes : List (List Piece) → List Lexeme
  | [] => []
  | first :: rest => .comma :: selectorLexemes first ++ restLexemes rest
end

/-! ## White space -/

theorem isNarrow_iff {text : List Char} :
    isNarrow text ↔ ∀ character ∈ text, isBlank character → ¬ isWide character := by
  simp [isNarrow, Classical.or_iff_not_imp_left]

theorem isNarrow_of_subset {part text : List Char} (narrow : isNarrow text)
    (subset : part ⊆ text) : isNarrow part :=
  isNarrow_iff.mpr fun character member => isNarrow_iff.mp narrow character (subset member)

theorem isNarrow_behind {first : Char} {part rest : List Char} (narrow : isNarrow (first :: rest))
    (suffix : part <:+ rest) : isNarrow part :=
  isNarrow_of_subset narrow (List.subset_cons_of_subset _ suffix.subset)

theorem endsSelector_append {blanks tail : List Char} (narrow : isNarrow blanks)
    (blank : ∀ character ∈ blanks, isBlank character) (ends : endsSelector tail) :
    endsSelector (blanks ++ tail) := by
  induction blanks with
  | nil => exact ends
  | cons first blanks induction =>
    have isWhite := blank first List.mem_cons_self
    have isAscii := isNarrow_iff.mp narrow first List.mem_cons_self isWhite
    have behind := induction (isNarrow_behind narrow List.suffix_rfl)
      fun character member => blank character (List.mem_cons_of_mem _ member)
    simp [endsSelector, isWhite, isAscii, behind]

/-! ## Balanced selectors -/

/-- A balanced text is read to its end, and no comma in it ends a selector. -/
structure Passes (nesting final : Nesting) (text : List Char) : Prop where
  balanced : nesting.run text = some final
  within : nesting.standing.runWithin text = some final.standing

namespace Passes

section

variable {nesting final : Nesting} {text rest front closers : List Char} {character : Char}
  {depth : Nat}

theorem eq_of_nil (passes : Passes nesting final []) : nesting = final :=
  Option.some.inj passes.balanced

theorem cut (passes : Passes nesting final (front ++ rest)) :
    ∃ middle, Passes nesting middle front ∧ Passes middle final rest := by
  obtain ⟨balanced, within⟩ := passes
  rw [Nesting.run, List.foldlM_append] at balanced
  rw [Standing.runWithin_append] at within
  obtain ⟨middle, runsFront, runsRest⟩ := Option.bind_eq_some_iff.mp balanced
  obtain ⟨standing, withinFront, withinRest⟩ := Option.bind_eq_some_iff.mp within
  obtain rfl : middle.standing = standing := by
    have runs := Nesting.standing_run runsFront
    rw [Standing.run_of_runWithin withinFront] at runs
    exact (Option.some.inj runs).symm
  exact ⟨middle, ⟨runsFront, withinFront⟩, ⟨runsRest, withinRest⟩⟩

theorem eq_bare (passes : Passes nesting final front)
    (runs : nesting.standing.runWithin front = some (.bare closers depth)) :
    final = ⟨depth, .none⟩ := by
  have same : final.standing = .bare closers depth :=
    Option.some.inj (passes.within.symm.trans runs)
  obtain ⟨depthBehind, shield⟩ := final
  obtain ⟨-, sameDepth, sameShield⟩ := Standing.mk.inj same
  exact congr (congrArg Nesting.mk sameDepth) sameShield

theorem behind (passes : Passes nesting final (front ++ rest))
    (runs : nesting.standing.runWithin front = some (.bare closers depth)) :
    Passes ⟨depth, .none⟩ final rest := by
  obtain ⟨middle, passesFront, passesRest⟩ := passes.cut
  rwa [passesFront.eq_bare runs] at passesRest

theorem neutral (passes : Passes ⟨depth, .none⟩ final (character :: rest))
    (isNeutral : character ∉ Nesting.special) : Passes ⟨depth, .none⟩ final rest := by
  have steps : (Standing.bare (.replicate depth ')') depth).runWithin [character] =
      some (.bare (.replicate depth ')') depth) := by
    rw [Standing.runWithin_cons, Standing.stepWithin_neutral isNeutral]
    rfl
  exact @behind _ _ rest [character] _ _ passes steps

theorem blanks (passes : Passes ⟨depth, .none⟩ final (front ++ rest))
    (blank : ∀ character ∈ front, isBlank character) : Passes ⟨depth, .none⟩ final rest := by
  have runs : (Standing.bare (.replicate depth ')') depth).runWithin (front ++ []) =
      some (.bare (.replicate depth ')') depth) :=
    Standing.runWithin_neutral fun character member =>
      not_special_of_isBlank (blank character member)
  rw [List.append_nil] at runs
  exact passes.behind runs

theorem colon (passes : Passes ⟨depth, .none⟩ final (':' :: rest)) :
    Passes ⟨depth, .none⟩ final rest :=
  passes.neutral (by decide)

/-- Behind a name, which can end in a backslash at the end of the text only. -/
theorem exists_name (passes : Passes ⟨depth, .none⟩ final text) :
    ∃ last, Passes ⟨depth, .none⟩ last (spanName text).2 ∧
      final.standing.Relaxes last.standing := by
  obtain ⟨escaped, runs, ends⟩ := runWithin_spanName text (.replicate depth ')') depth
  rw [← spanName_append text] at passes
  cases escaped with
  | false => exact ⟨final, passes.behind runs, .refl _⟩
  | true =>
    rw [ends rfl] at passes ⊢
    rw [List.append_nil] at passes
    have same : final.standing = ⟨.replicate depth ')', depth, none, true⟩ :=
      Option.some.inj (passes.within.symm.trans runs)
    refine ⟨⟨depth, .none⟩, ⟨rfl, rfl⟩, ?_⟩
    rw [same]
    exact Standing.relaxes_bare (.replicate depth ')') depth

theorem shield (passes : Passes ⟨depth, .none⟩ final (character :: rest))
    (opens : (Shield.opened character).isSome) (closed : final.standing.IsClosed) :
    (∀ tail, spanShield ⟨Shield.opened character, false⟩ (rest ++ tail) =
      ((spanShield ⟨Shield.opened character, false⟩ rest).1,
        (spanShield ⟨Shield.opened character, false⟩ rest).2 ++ tail)) ∧
      Passes ⟨depth, .none⟩ final (spanShield ⟨Shield.opened character, false⟩ rest).2 := by
  have inside := Option.isSome_iff_ne_none.mp opens
  obtain ⟨closers, steps⟩ := exists_stepWithin_opened opens (.replicate depth ')') depth
  have runs : ((Standing.bare (.replicate depth ')') depth).stepWithin character).bind
      (fun next => next.runWithin rest) = some final.standing := passes.within
  rw [steps, Option.bind_some] at runs
  refine ⟨spanShield_append_tail inside runs closed.1, ?_⟩
  obtain ⟨⟨closersBehind, runsInside⟩, -⟩ := exists_spanShield inside runs closed.1
  have runsFront : (Standing.bare (.replicate depth ')') depth).runWithin
      (character :: (spanShield ⟨Shield.opened character, false⟩ rest).1) =
        some (.bare closersBehind depth) := by
    rw [Standing.runWithin_cons, steps]
    exact runsInside
  rw [← spanShield_append ⟨Shield.opened character, false⟩ rest, ← List.cons_append] at passes
  exact passes.behind runsFront

theorem arguments (passes : Passes ⟨depth, .none⟩ final text) (closed : final.standing.IsClosed) :
    Passes ⟨depth, .none⟩ final (spanArguments text).2 := by
  obtain ⟨⟨closersBehind, runs⟩, -⟩ := exists_spanArguments passes.within closed
  rw [← spanArguments_append text] at passes
  exact passes.behind runs

/-- A group that stands at the beginning of a text is balanced inside. -/
theorem group (passes : Passes ⟨depth, .none⟩ final ('(' :: text))
    (closed : final.standing.IsClosed) :
    ∃ inside after, text = inside ++ ')' :: after ∧
      (∀ tail, spanArguments ('(' :: inside ++ ')' :: tail) = ('(' :: inside ++ [')'], tail)) ∧
      Nesting.outside.run inside = some .outside ∧ Passes ⟨depth, .none⟩ final after := by
  obtain ⟨inside, after, inner, closersBehind, rfl, runsInside, ends, runsAfter⟩ :=
    exists_group passes.within closed
  have whole : '(' :: (inside ++ ')' :: after) = ('(' :: inside ++ [')']) ++ after := by simp
  refine ⟨inside, after, rfl, Standing.spanArguments_group runsInside, ?_, ?_⟩
  · rw [← List.cons_append] at passes
    obtain ⟨middle, front, -⟩ := passes.cut
    exact @Nesting.run_inside middle inside [] (depth + 1) 0 .none _ front.balanced runsInside
  · rw [whole] at passes
    exact passes.behind (Standing.runWithin_group runsInside ends)

theorem trimmed {back : List Char} (passes : Passes ⟨depth, .none⟩ final text)
    (whole : text = front ++ (trimCharacters text ++ back))
    (blank : ∀ character ∈ front, isBlank character) :
    ∃ middle, Passes ⟨depth, .none⟩ middle (trimCharacters text) ∧ Passes middle final back ∧
      (final.standing.IsClosed → middle.standing.IsClosed) := by
  obtain ⟨standing, runs, resembles⟩ := exists_run_trimCharacters passes.within
  rw [whole] at passes
  obtain ⟨middle, kept, behind⟩ := (passes.blanks blank).cut
  obtain rfl : middle.standing = standing := Option.some.inj (kept.within.symm.trans runs)
  exact ⟨middle, kept, behind, resembles.isClosed⟩

end

end Passes

/-- Behind the brackets of a balanced text only its parentheses are awaited. -/
theorem depth_of_isClosed {final : Nesting} (closed : final.standing.IsClosed) :
    final.depth = 0 := by
  obtain ⟨depth, guard, escaped⟩ := final
  obtain ⟨rfl, atStart | nothing⟩ := closed
  · exact atStart
  · simpa [Nesting.standing, Nesting.closers] using nothing

theorem passes_item {final : Nesting} {item text : List Char} {depth : Nat}
    (balanced : Nesting.outside.run (item ++ ',' :: text) = some final)
    (runs : (Standing.bare [] 0).runWithin item = some (.bare [] depth)) :
    depth = 0 ∧ Passes .outside .outside item ∧ Nesting.outside.run text = some final := by
  rw [Nesting.run, List.foldlM_append] at balanced
  obtain ⟨middle, balancedItem, balancedText⟩ := Option.bind_eq_some_iff.mp balanced
  have same : middle.standing = .bare [] depth := by
    have runsItem := Nesting.standing_run balancedItem
    exact Option.some.inj (runsItem.symm.trans (Standing.run_of_runWithin runs))
  have closed : middle.standing.IsClosed := same ▸ ⟨rfl, .inr rfl⟩
  obtain rfl : 0 = depth := (depth_of_isClosed closed).symm.trans (congrArg Standing.depth same)
  obtain rfl : middle = .outside := Nesting.standing_inj.mp same
  exact ⟨rfl, ⟨balancedItem, runs⟩, balancedText⟩

/-! ## Selectors in their list -/

/-- The pieces that a text is cut into are its lexemes, when the text is a selector in a list. -/
def Reads (text : List Char) (pieces : List Piece) : Prop :=
  ∀ (depth : Nat) (parens : List Paren) (tail : List Char) (final : Nesting),
    Passes ⟨depth, .none⟩ final text → final.standing.IsClosed → endsSelector tail →
      Apart final.standing tail → parens.head? ≠ some .plain →
      lex (List.replicate depth .plain ++ parens) (text ++ tail) =
        selectorLexemes pieces ++ lex parens tail

namespace Reads

section

variable {text rest : List Char} {pieces : List Piece} {character : Char}

theorem nil : Reads [] [] := by
  intro depth parens tail final passes closed ends apart top
  obtain rfl := passes.eq_of_nil
  obtain rfl : depth = 0 := depth_of_isClosed closed
  rfl

theorem backslash {copied : List Char} (reads : Reads (rest.drop 1) pieces) :
    Reads ('\\' :: rest) (.verbatim copied :: pieces) := by
  intro depth parens tail final passes closed ends apart top
  rw [List.cons_append, lex_backslash]
  cases rest with
  | nil =>
    -- The character behind the backslash, if there is one, has been trimmed.
    obtain rfl : ⟨depth, none, true⟩ = final := Option.some.inj passes.balanced
    obtain rfl : depth = 0 := depth_of_isClosed closed
    have swallows : Swallows tail (tail.take 1) (tail.drop 1) := by
      refine .take ends 1 fun character member => apart rfl character ?_
      cases tail with
      | nil => cases member
      | cons first tail => exact congrArg some (List.mem_singleton.mp member).symm
    have behind := reads 0 parens (tail.drop 1) .outside ⟨rfl, rfl⟩ ⟨rfl, .inl rfl⟩ swallows.ends
      (fun escaped => nomatch escaped) top
    rw [← @lex_blanks parens (tail.drop 1) (tail.take 1) swallows.blank, ← swallows.whole] at behind
    exact behind
  | cons first rest =>
    have passesBehind : Passes ⟨depth, .none⟩ final rest :=
      @Passes.behind _ _ rest ['\\', first] (.replicate depth ')') depth passes (by
        rw [Nesting.standing]
        exact Standing.runWithin_escape first)
    exact reads depth parens tail final passesBehind closed ends apart top

theorem shield {copied : List Char} (opens : (Shield.opened character).isSome)
    (reads : Reads (spanShield ⟨Shield.opened character, false⟩ rest).2 pieces) :
    Reads (character :: rest) (.verbatim copied :: pieces) := by
  intro depth parens tail final passes closed ends apart top
  obtain ⟨same, behind⟩ := passes.shield opens closed
  rw [List.cons_append, lex_shield opens, same]
  exact reads depth parens tail final behind closed ends apart top

theorem verbatim {copied : List Char} (noBackslash : character ≠ '\\')
    (noShield : ¬ (Shield.opened character).isSome)
    (noName : ¬ ((character = '.' || character = '#') && (rest.head?.map startsName).getD false))
    (noColon : character ≠ ':') (reads : Reads rest pieces) :
    Reads (character :: rest) (.verbatim copied :: pieces) := by
  intro depth parens tail final passes closed ends apart top
  rw [List.cons_append]
  by_cases neutral : character ∈ Nesting.special
  · have few : character = ']' ∨ character = '(' ∨ character = ')' ∨ character = ',' := by
      simp only [Shield.opened, isQuote] at noShield
      simp only [Nesting.special, List.mem_cons, List.not_mem_nil, or_false] at neutral
      grind
    obtain ⟨behind, ⟨steps, within⟩, passes⟩ := @Passes.cut _ _ rest [character] passes
    rcases few with rfl | rfl | rfl | rfl
    · cases steps
    · obtain rfl : ⟨depth + 1, .none⟩ = behind := Option.some.inj steps
      rw [lex_opens]
      exact reads (depth + 1) parens tail final passes closed ends apart top
    · cases depth with
      | zero => cases steps
      | succ depth =>
        obtain rfl : ⟨depth, .none⟩ = behind := Option.some.inj steps
        rw [List.replicate_succ, List.cons_append, lex_closes_plain]
        exact reads depth parens tail final passes closed ends apart top
    · cases depth with
      | zero => cases within
      | succ depth =>
        obtain rfl : ⟨depth + 1, .none⟩ = behind := Option.some.inj steps
        rw [List.replicate_succ, List.cons_append, lex_comma_plain]
        exact reads (depth + 1) parens tail final passes closed ends apart top
  · rw [lex_skip neutral noColon (by rwa [startsName_append ends])]
    exact reads depth parens tail final (passes.neutral neutral) closed ends apart top

/-- Behind a name, with what it takes of the text behind the selector. -/
theorem behindName (reads : Reads (spanName rest).2 pieces) {depth : Nat} {parens : List Paren}
    {tail lost kept : List Char} {final : Nesting} (passes : Passes ⟨depth, .none⟩ final rest)
    (closed : final.standing.IsClosed) (apart : Apart final.standing tail)
    (top : parens.head? ≠ some .plain) (takes : Takes final.standing rest tail lost kept) :
    lex (List.replicate depth .plain ++ parens) ((spanName rest).2 ++ kept) =
      selectorLexemes pieces ++ lex parens tail := by
  obtain ⟨last, behind, relaxes⟩ := passes.exists_name
  rw [takes.swallows.whole, lex_blanks takes.swallows.blank]
  exact reads depth parens kept last behind (relaxes.isClosed closed) takes.swallows.ends
    (takes.apart apart relaxes behind.within) top

theorem name {sigil : Sigil} (isSigil : sigil = if character = '.' then .dot else .hash)
    (starts : (character = '.' || character = '#') && (rest.head?.map startsName).getD false)
    (reads : Reads (spanName rest).2 pieces) :
    Reads (character :: rest) (.name sigil (spanName rest).1 :: pieces) := by
  intro depth parens tail final passes closed ends apart top
  have passes := passes.neutral (not_special_of_starts starts)
  obtain ⟨lost, kept, takes⟩ := exists_takes passes.within ends apart
  rw [List.cons_append, lex_name (by rwa [startsName_append ends]), ← isSigil, takes.spans,
    trimCharacters_append_blanks takes.swallows.blank,
    reads.behindName passes closed apart top takes]
  rfl

theorem behindArguments (reads : Reads (spanArguments (spanName rest).2).2 pieces) {depth : Nat}
    {parens : List Paren} {tail lost kept : List Char} {final : Nesting}
    (passes : Passes ⟨depth, .none⟩ final rest) (closed : final.standing.IsClosed)
    (apart : Apart final.standing tail) (top : parens.head? ≠ some .plain)
    (takes : Takes final.standing rest tail lost kept) :
    lex (List.replicate depth .plain ++ parens) (spanArguments ((spanName rest).2 ++ kept)).2 =
      selectorLexemes pieces ++ lex parens tail := by
  obtain ⟨last, behind, relaxes⟩ := passes.exists_name
  have closedBehind := relaxes.isClosed closed
  rw [spanArguments_append_tail behind.within closedBehind takes.swallows.ends,
    takes.swallows.whole, lex_blanks takes.swallows.blank]
  have apartBehind : Apart last.standing kept := takes.apart apart relaxes behind.within
  exact reads depth parens kept last (behind.arguments closedBehind) closedBehind
    takes.swallows.ends apartBehind top

theorem element {copied : List Char} (reads : Reads (spanArguments (spanName rest).2).2 pieces) :
    Reads (':' :: ':' :: rest) (.verbatim copied :: pieces) := by
  intro depth parens tail final passes closed ends apart top
  have passes := passes.colon.colon
  obtain ⟨lost, kept, takes⟩ := exists_takes passes.within ends apart
  rw [List.cons_append, List.cons_append, lex_element, takes.spans]
  exact reads.behindArguments passes closed apart top takes

/-- A pseudo-class whose arguments, if it has any, are not scanned. -/
theorem pseudo {copied : List Char} (noElement : rest.head? ≠ some ':')
    (unscanned : (spanName rest).2.head? = some '(' → Lexeme.opening? (spanName rest).1 = none)
    (noSwitch : Piece.scope? (spanName rest).1 = none)
    (reads : Reads (spanArguments (spanName rest).2).2 pieces) :
    Reads (':' :: rest) (.verbatim copied :: pieces) := by
  intro depth parens tail final passes closed ends apart top
  have noElementBehind := mt (head?_append ends rest (.inl rfl)).mp noElement
  obtain ⟨lost, kept, takes⟩ := exists_takes passes.colon.within ends apart
  obtain ⟨sameOpening, sameScope⟩ := takes.opening?_append
  rw [List.cons_append, lex_pseudo noElementBehind, takes.spans]
  · exact reads.behindArguments passes.colon closed apart top takes
  · rw [takes.spans]
    dsimp only
    rw [head?_append takes.swallows.ends _ (.inr rfl), sameOpening]
    exact unscanned
  · rw [takes.spans]
    exact sameScope.trans noSwitch

theorem switch {isGlobal : Bool} (noElement : rest.head? ≠ some ':')
    (noGroup : (spanName rest).2.head? ≠ some '(')
    (scope : Piece.scope? (spanName rest).1 = some isGlobal)
    (reads : Reads ((spanName rest).2.dropWhile isBlank) pieces) :
    Reads (':' :: rest) (.switch isGlobal :: pieces) := by
  have readsName : Reads (spanName rest).2 pieces := by
    intro depth parens tail final passes closed ends apart top
    have split := @List.takeWhile_append_dropWhile _ isBlank (spanName rest).2
    have blank : ∀ character ∈ (spanName rest).2.takeWhile isBlank, isBlank character := fun _ =>
      List.all_eq_true.mp List.all_takeWhile _
    rw [← split] at passes
    rw [← split, List.append_assoc, lex_blanks blank]
    exact reads depth parens tail final (passes.blanks blank) closed ends apart top
  intro depth parens tail final passes closed ends apart top
  have noElementBehind := mt (head?_append ends rest (.inl rfl)).mp noElement
  obtain ⟨lost, kept, takes⟩ := exists_takes passes.colon.within ends apart
  have noGroupBehind :=
    mt (head?_append takes.swallows.ends (spanName rest).2 (.inr rfl)).mp noGroup
  rw [List.cons_append, lex_switch noElementBehind (by rw [takes.spans]; exact noGroupBehind)
    (by rw [takes.spans]; exact takes.opening?_append.2.trans scope), takes.spans,
    readsName.behindName passes.colon closed apart top takes]
  rfl

/-- A selector reads the same with the white space that trimming takes off. -/
theorem trimmed {item : List Char} (narrow : isNarrow item)
    (reads : Reads (trimCharacters item) pieces) : Reads item pieces := by
  intro depth parens tail final passes closed ends apart top
  obtain ⟨front, back, whole, blankFront, blankBack⟩ := trimCharacters_split item
  obtain ⟨middle, passesKept, passesBack, stays⟩ := passes.trimmed whole blankFront
  have narrowBack : isNarrow back :=
    isNarrow_of_subset narrow fun character member => by
      rw [whole]
      exact List.mem_append_right _ (List.mem_append_right _ member)
  have apartBehind : Apart middle.standing (back ++ tail) := by
    cases back with
    | nil =>
      obtain rfl := passesBack.eq_of_nil
      exact apart
    | cons first back =>
      intro _ character isFirst
      obtain rfl : first = character := Option.some.inj isFirst
      exact blankBack first List.mem_cons_self
  rw [whole, List.append_assoc, lex_blanks blankFront, List.append_assoc,
    reads depth parens (back ++ tail) middle passesKept (stays closed)
      (endsSelector_append narrowBack blankBack ends) apartBehind top, lex_blanks blankBack]

theorem restLexemes_of_items {final standing : Standing} {items : List (List Char)}
    {piecesOf : List Char → List Piece} (cut : Standing.Items final standing text items) :
    restLexemes (items.map piecesOf) = .comma :: listLexemes (items.map piecesOf) := by
  cases cut <;> rfl

theorem lex_items {final : Nesting} {standing : Standing} {items : List (List Char)}
    {tail : List Char} {parens : List Paren} {piecesOf : List Char → List Piece}
    (cut : Standing.Items final.standing standing text items) (atStart : standing = .bare [] 0)
    (balanced : Nesting.outside.run text = some final)
    (reads : ∀ item ∈ items, Reads item (piecesOf item)) (closed : final.standing.IsClosed)
    (ends : endsSelector tail) (apart : Apart final.standing tail)
    (top : parens.head? ≠ some .plain) :
    lex parens (text ++ tail) = listLexemes (items.map piecesOf) ++ lex parens tail := by
  induction cut with
  | @last standing item runs =>
    subst atStart
    have passes : Passes .outside final item := ⟨balanced, runs⟩
    have readsItem :=
      reads item List.mem_cons_self 0 parens tail final passes closed ends apart top
    rw [List.map_singleton, listLexemes, restLexemes, List.append_nil]
    exact readsItem
  | @more standing item text items depth runs behind induction =>
    subst atStart
    obtain ⟨rfl, passes, balancedBehind⟩ := passes_item balanced runs
    have readsItem := reads item List.mem_cons_self 0 parens (',' :: (text ++ tail)) .outside
      passes ⟨rfl, .inl rfl⟩ rfl (fun escaped => nomatch escaped) top
    have others := induction rfl balancedBehind
      fun other member => reads other (List.mem_cons_of_mem _ member)
    rw [List.append_assoc, List.cons_append, List.map_cons, listLexemes,
      restLexemes_of_items behind, List.append_assoc, List.cons_append, ← others, ← lex_comma top]
    exact readsItem

theorem scanned {wraps : Option Bool} {piece : Piece} {piecesOf : List Char → List Piece}
    (noElement : rest.head? ≠ some ':') (group : (spanName rest).2.head? = some '(')
    (opening : Lexeme.opening? (spanName rest).1 = some (.opens wraps))
    (lexemes : piece.lexemes = .opens wraps ::
      listLexemes ((Piece.argumentItems (spanArguments (spanName rest).2).1).map piecesOf) ++
        [.closes])
    (readsInside : ∀ item ∈ Piece.argumentItems (spanArguments (spanName rest).2).1,
      Reads item (piecesOf item))
    (reads : Reads (spanArguments (spanName rest).2).2 pieces) :
    Reads (':' :: rest) (piece :: pieces) := by
  intro depth parens tail final passes closed ends apart top
  have noElementBehind := mt (head?_append ends rest (.inl rfl)).mp noElement
  obtain ⟨lost, kept, takes⟩ := exists_takes passes.colon.within ends apart
  obtain ⟨last, behind, relaxes⟩ := passes.colon.exists_name
  have apartBehind : Apart last.standing kept := takes.apart apart relaxes behind.within
  obtain ⟨arguments, isGroup⟩ := List.head?_eq_some_iff.mp group
  rw [isGroup] at behind
  obtain ⟨inside, after, rfl, spans, balanced, passesAfter⟩ :=
    behind.group (relaxes.isClosed closed)
  have alone := spans after
  rw [List.cons_append] at alone
  rw [isGroup, alone] at lexemes readsInside reads
  rw [argumentItems_group] at lexemes readsInside
  have groupBehind : (spanName (rest ++ tail)).2 = '(' :: (inside ++ ')' :: (after ++ kept)) := by
    rw [takes.spans, isGroup]
    simp
  have scannedTop : (Paren.scanned :: (List.replicate depth .plain ++ parens)).head? ≠
      some .plain := by simp
  have items := Standing.items_cutCommas (Standing.covered_bare [] 0)
    (Nesting.standing_run balanced)
  rw [List.cons_append, lex_scanned noElementBehind groupBehind
      (by rw [takes.spans]; exact takes.opening?_append.1.trans opening),
    lex_items items rfl balanced readsInside ⟨rfl, .inl rfl⟩ rfl
      (fun escaped => nomatch escaped) scannedTop,
    lex_closes_scanned, takes.swallows.whole, lex_blanks takes.swallows.blank,
    reads depth parens kept last passesAfter (relaxes.isClosed closed) takes.swallows.ends
      apartBehind top,
    selectorLexemes, lexemes]
  simp only [List.cons_append, List.append_assoc, List.nil_append]
  rfl

end

end Reads

/-! ## Reading -/

theorem subset_of_mem_arguments {first : Char} {text item : List Char}
    (member : item ∈ Piece.argumentItems (spanArguments (spanName text).2).1) :
    item ⊆ first :: text := by
  intro character inItem
  refine List.mem_cons_of_mem _ ?_
  rw [← spanName_append text, ← spanArguments_append (spanName text).2]
  exact List.mem_append_right _
    (List.mem_append_left _ (subset_of_mem_argumentItems member inItem))

theorem spanArguments_suffix (text : List Char) :
    (spanArguments (spanName text).2).2 <:+ text :=
  List.IsSuffix.trans ⟨_, spanArguments_append _⟩ ⟨_, spanName_append text⟩

theorem lexemes_arguments (items : List (List Char)) :
    listLexemes (items.attach.map fun item => Piece.read (trimCharacters item.val)) =
      listLexemes (items.map fun item => Piece.read (trimCharacters item)) := by
  simp

/-- By the cases of cutting into pieces; arguments are cut into their own pieces first. -/
theorem reads_read {text : List Char} (narrow : isNarrow text) : Reads text (Piece.read text) := by
  fun_induction Piece.read text with
  | case1 => exact .nil
  | case2 rest induction =>
    exact .backslash (induction (isNarrow_behind narrow (List.drop_suffix 1 rest)))
  | case3 character rest _ opens span induction =>
    exact .shield opens (induction (isNarrow_behind narrow ⟨_, spanShield_append _ rest⟩))
  | case4 character rest _ _ starts span induction =>
    exact .name rfl starts (induction (isNarrow_behind narrow ⟨_, spanName_append rest⟩))
  | case5 character rest _ _ _ element name arguments induction =>
    obtain ⟨rfl, isColon⟩ : character = ':' ∧ rest.head? = some ':' := by simpa using element
    obtain ⟨rest, rfl⟩ := List.head?_eq_some_iff.mp isColon
    refine .element (induction (isNarrow_behind narrow ?_))
    exact (spanArguments_suffix rest).trans (List.suffix_cons ':' rest)
  | case6 rest name arguments isGlobal scope noArguments _ _ _ noElement induction =>
    refine .switch (by simpa using noElement) ?_ scope (induction (isNarrow_behind narrow ?_))
    · exact mt (isEmpty_spanArguments _).mpr (by simpa using noArguments)
    · exact (List.dropWhile_suffix _).trans ⟨_, spanName_append rest⟩
  | case7 rest name arguments items isGlobal scope group _ _ _ noElement inside induction =>
    have opening : Lexeme.opening? name.1 = some (.opens (some isGlobal)) := by
      simp [Lexeme.opening?, scope]
    refine .scanned (by simpa using noElement)
      ((isEmpty_spanArguments _).mp (by simpa using group)) opening
      (by rw [Piece.lexemes, lexemes_arguments]) (fun item member => ?_)
      (induction (isNarrow_behind narrow (spanArguments_suffix rest)))
    have narrowItem : isNarrow item := isNarrow_of_subset narrow (subset_of_mem_arguments member)
    have narrowTrimmed := isNarrow_of_subset narrowItem (trimCharacters_subset item)
    exact (inside ⟨item, member⟩ narrowTrimmed).trimmed narrowItem
  | case8 rest name arguments items noScope functional _ _ _ noElement inside induction =>
    obtain ⟨group, takes⟩ := Bool.and_eq_true_iff.mp functional
    have opening : Lexeme.opening? name.1 = some (.opens none) := by
      simp [Lexeme.opening?, noScope, takes]
    refine .scanned (by simpa using noElement)
      ((isEmpty_spanArguments _).mp (by simpa using group)) opening
      (by rw [Piece.lexemes, lexemes_arguments]) (fun item member => ?_)
      (induction (isNarrow_behind narrow (spanArguments_suffix rest)))
    have narrowItem : isNarrow item := isNarrow_of_subset narrow (subset_of_mem_arguments member)
    have narrowTrimmed := isNarrow_of_subset narrowItem (trimCharacters_subset item)
    exact (inside ⟨item, member⟩ narrowTrimmed).trimmed narrowItem
  | case9 rest name arguments noScope unscanned _ _ _ noElement induction =>
    refine .pseudo (by simpa using noElement) (fun group => ?_) noScope
      (induction (isNarrow_behind narrow (spanArguments_suffix rest)))
    have isGroup := (isEmpty_spanArguments _).mpr group
    simpa [Lexeme.opening?, noScope, arguments, name, isGroup] using unscanned
  | case10 character rest noBackslash noShield noName _ noColon induction =>
    exact .verbatim noBackslash noShield noName noColon
      (induction (isNarrow_behind narrow List.suffix_rfl))

/-- The lexemes of a selector list are those of the pieces of its items. -/
theorem lex_eq_listLexemes {text : List Char} (balanced : isBalanced text)
    (narrow : isNarrow text) :
    lex [] text = listLexemes ((commaItems text).map Piece.read) := by
  obtain ⟨final, runs, closed⟩ := (Option.any_eq_true _ _).mp balanced
  obtain ⟨noDepth, noGuard⟩ : final.depth = 0 ∧ final.shield.guard = none := by simpa using closed
  have closed : final.standing.IsClosed := ⟨noGuard, .inl noDepth⟩
  have reads : ∀ item ∈ commaItems text, Reads item (Piece.read item) := fun item member =>
    reads_read (isNarrow_of_subset narrow (sublist_of_mem_cutCommas member).subset)
  have items := Standing.items_cutCommas (Standing.covered_bare [] 0) (Nesting.standing_run runs)
  have noPlain : ([] : List Paren).head? ≠ some .plain := nofun
  have apart : Apart final.standing [] := fun _ _ first => nomatch first
  have read := Reads.lex_items items rfl runs reads closed rfl apart noPlain
  rw [List.append_nil] at read
  rw [read, lex, List.append_nil]
  rfl

end ScopedStyles.Selector
