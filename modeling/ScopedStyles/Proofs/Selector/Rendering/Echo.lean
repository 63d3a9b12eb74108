import Mathlib.Data.List.Basic
import ScopedStyles.Proofs.Selector.Rendering.Trimming

/-!
Reading what is printed. The pieces of a selector are printed one behind the other, with their names
respelled and the selectors in arguments trimmed, and what is printed is cut into pieces again: it
leaves open what the selector leaves open, and it has the same classes and ids, with the names that
were spelled.
-/

namespace ScopedStyles.Selector

open Text

/-- Names stay as they are spelled or are spelled anew. -/
def Respells (respell : List Char → List Char) : Prop :=
  ∀ spelling, respell spelling = spelling ∨
    ∃ name, name ≠ [] ∧ respell spelling = Identifier.encode name

/-- The pieces of a text are read again when they are printed. -/
structure Echo (respell : List Char → List Char) (text : List Char) (pieces : List Piece) :
    Prop where
  head : (printPieces respell pieces).head? = text.head?
  echoes : ∀ (closers : List Char) (depth : Nat) (final : Standing),
    (Standing.bare closers depth).runWithin text = some final → final.IsClosed →
      (∃ relaxed, (Standing.bare closers depth).runWithin (printPieces respell pieces) =
          some relaxed ∧ Standing.Relaxes final relaxed) ∧
        readWords (printPieces respell pieces) = (selectorWords pieces).map (Word.decode respell)

namespace Echo

section

variable {respell : List Char → List Char} {rest span after : List Char} {pieces : List Piece}
  {character : Char}

theorem nil (respell : List Char → List Char) : Echo respell [] [] :=
  ⟨rfl, fun _ _ final runs _ => ⟨⟨final, runs, .refl final⟩, readWords_nil⟩⟩

theorem of_nil (echo : Echo respell [] pieces) :
    printPieces respell pieces = [] ∧ (selectorWords pieces).map (Word.decode respell) = [] := by
  have nothing : printPieces respell pieces = [] := List.head?_eq_none_iff.mp echo.head
  have reads := (echo.echoes [] 0 (.bare [] 0) rfl ⟨rfl, .inl rfl⟩).2
  rw [nothing, readWords_nil] at reads
  exact ⟨nothing, reads.symm⟩

/-! ## What is copied -/

/-- A span that is copied ends the text, or it is closed and is passed over in the same way whatever
is behind it that begins like what was behind it. -/
def Copied (span after : List Char) : Prop :=
  ∀ (closers : List Char) (depth : Nat) (final : Standing),
    (Standing.bare closers depth).runWithin (span ++ after) = some final → final.IsClosed →
      after = [] ∧ readWords span = [] ∨
        ∃ closersBehind depthBehind, (Standing.bare closers depth).runWithin span =
            some (.bare closersBehind depthBehind) ∧
          ∀ other, other.head? = after.head? → readWords (span ++ other) = readWords other

theorem copied (echo : Echo respell after pieces) (copies : Copied span after)
    (nonempty : span ≠ []) : Echo respell (span ++ after) (.verbatim span :: pieces) := by
  obtain ⟨first, others, rfl⟩ := List.exists_cons_of_ne_nil nonempty
  refine ⟨rfl, fun closers depth final runs closed => ?_⟩
  rcases copies closers depth final runs closed with
    ⟨rfl, noWords⟩ | ⟨closersBehind, depthBehind, passes, reads⟩
  · obtain ⟨nothing, noWordsBehind⟩ := echo.of_nil
    rw [printPieces, Piece.print, nothing]
    refine ⟨⟨final, runs, .refl final⟩, ?_⟩
    rw [List.append_nil, noWords]
    exact noWordsBehind.symm
  · rw [Standing.runWithin_append, passes, Option.bind_some] at runs
    obtain ⟨stands, readsBehind⟩ := echo.echoes closersBehind depthBehind final runs closed
    rw [printPieces, Piece.print, Standing.runWithin_append, passes, Option.bind_some,
      reads _ echo.head, readsBehind]
    exact ⟨stands, rfl⟩

theorem copied_backslash (rest : List Char) : Copied ('\\' :: rest.take 1) (rest.drop 1) := by
  intro closers depth final _ _
  cases rest with
  | nil => exact .inl ⟨rfl, readWords_backslash.trans readWords_nil⟩
  | cons first rest =>
    exact .inr ⟨closers, depth, Standing.runWithin_escape first, fun other _ =>
      readWords_backslash⟩

theorem copied_shield (opens : (Shield.opened character).isSome) :
    Copied (character :: (spanShield ⟨Shield.opened character, false⟩ rest).1)
      (spanShield ⟨Shield.opened character, false⟩ rest).2 := by
  intro closers depth final runs closed
  obtain ⟨closersInside, steps⟩ := exists_stepWithin_opened opens closers depth
  rw [List.cons_append, spanShield_append, Standing.runWithin_cons, steps, Option.bind_some] at runs
  obtain ⟨⟨closersBehind, runsInside⟩, spans⟩ :=
    exists_spanShield (Option.isSome_iff_ne_none.mp opens) runs closed.1
  refine .inr ⟨closersBehind, depth, ?_, fun other _ => ?_⟩
  · rw [Standing.runWithin_cons, steps, Option.bind_some, runsInside]
  · rw [List.cons_append, readWords_shield opens, spans]

theorem copied_skip (noBackslash : character ≠ '\\')
    (noShield : ¬ (Shield.opened character).isSome)
    (noName : ¬ ((character = '.' || character = '#') && (rest.head?.map startsName).getD false))
    (noColon : character ≠ ':') : Copied [character] rest := by
  intro closers depth final runs closed
  obtain ⟨behind, steps, runs⟩ := Option.bind_eq_some_iff.mp runs
  have isBare := Standing.eq_bare_of_stepWithin noBackslash (by simpa using noShield) steps
  refine .inr ⟨behind.closers, behind.depth, ?_, fun other same => ?_⟩
  · rw [Standing.runWithin_cons, steps, Option.bind_some, ← isBare]
    rfl
  · rw [List.singleton_append, readWords_skip noBackslash noShield (by rwa [same]) noColon]

/-- A name and its arguments end the text, or they are read in the same way whatever is behind
them. -/
theorem exists_behindArguments {closers : List Char} {depth : Nat} {final : Standing}
    (runs : (Standing.bare closers depth).runWithin rest = some final) (closed : final.IsClosed) :
    (spanName rest).2 = [] ∨
      (∃ closersBehind, (Standing.bare closers depth).runWithin
          ((spanName rest).1 ++ (spanArguments (spanName rest).2).1) =
        some (.bare closersBehind depth)) ∧
      ∀ other, other.head? = (spanArguments (spanName rest).2).2.head? →
        spanName ((spanName rest).1 ++ ((spanArguments (spanName rest).2).1 ++ other)) =
            ((spanName rest).1, (spanArguments (spanName rest).2).1 ++ other) ∧
          spanArguments ((spanArguments (spanName rest).2).1 ++ other) =
            ((spanArguments (spanName rest).2).1, other) := by
  obtain ⟨escaped, runsName, ends⟩ := runWithin_spanName rest closers depth
  cases escaped with
  | true => exact .inl (ends rfl)
  | false =>
    refine .inr ?_
    rw [← spanName_append rest, Standing.runWithin_append, runsName, Option.bind_some] at runs
    obtain ⟨⟨closersBehind, runsArguments⟩, spans⟩ := exists_spanArguments runs closed
    refine ⟨⟨closersBehind, ?_⟩, fun other same => ?_⟩
    · rw [Standing.runWithin_append, runsName, Option.bind_some]
      exact runsArguments
    have goesOn : GoesOnAs ((spanArguments (spanName rest).2).1 ++ other) (spanName rest).2 := by
      have behind := GoesOnAs.append (.inr same) (spanArguments (spanName rest).2).1
      rwa [spanArguments_append] at behind
    exact ⟨spanName_of_goesOnAs goesOn, spans other fun isGroup => same.symm.trans isGroup⟩

theorem head?_append_congr {other : List Char} (same : other.head? = after.head?)
    (front : List Char) : (front ++ other).head? = (front ++ after).head? := by
  rw [List.head?_append, List.head?_append, same]

theorem eq_spanName_of_ended (ended : (spanName rest).2 = []) :
    (spanName rest).1 = rest ∧ spanArguments (spanName rest).2 = ([], []) := by
  have whole := spanName_append rest
  rw [ended, List.append_nil] at whole
  exact ⟨whole, by rw [ended]; rfl⟩

theorem copied_element :
    Copied (':' :: ':' :: (spanName rest).1 ++ (spanArguments (spanName rest).2).1)
      (spanArguments (spanName rest).2).2 := by
  intro closers depth final runs closed
  have whole : ∀ other, ':' :: ':' :: (spanName rest).1 ++ (spanArguments (spanName rest).2).1 ++
      other = ':' :: ':' :: ((spanName rest).1 ++
        ((spanArguments (spanName rest).2).1 ++ other)) := by simp
  rw [whole, spanArguments_append, spanName_append, IgnoresBlanks.runWithin_colon,
    IgnoresBlanks.runWithin_colon] at runs
  rcases exists_behindArguments runs closed with ended | ⟨⟨closersBehind, passes⟩, spans⟩
  · obtain ⟨named, noArguments⟩ := eq_spanName_of_ended ended
    rw [noArguments, named, List.append_nil, readWords_element, noArguments]
    exact .inl ⟨rfl, readWords_nil⟩
  · refine .inr ⟨closersBehind, depth, ?_, fun other same => ?_⟩
    · rw [List.cons_append, List.cons_append, IgnoresBlanks.runWithin_colon,
        IgnoresBlanks.runWithin_colon]
      exact passes
    · obtain ⟨spansName, spansArguments⟩ := spans other same
      rw [whole, readWords_element, spansName, spansArguments]

theorem copied_pseudo (noElement : rest.head? ≠ some ':')
    (unscanned : (spanName rest).2.head? = some '(' → Lexeme.opening? (spanName rest).1 = none)
    (noSwitch : Piece.scope? (spanName rest).1 = none) :
    Copied (':' :: (spanName rest).1 ++ (spanArguments (spanName rest).2).1)
      (spanArguments (spanName rest).2).2 := by
  intro closers depth final runs closed
  have whole : ∀ other, ':' :: (spanName rest).1 ++ (spanArguments (spanName rest).2).1 ++
      other = ':' :: ((spanName rest).1 ++
        ((spanArguments (spanName rest).2).1 ++ other)) := by simp
  rw [whole, spanArguments_append, spanName_append, IgnoresBlanks.runWithin_colon] at runs
  rcases exists_behindArguments runs closed with ended | ⟨⟨closersBehind, passes⟩, spans⟩
  · obtain ⟨named, noArguments⟩ := eq_spanName_of_ended ended
    rw [noArguments, named, List.append_nil, readWords_pseudo noElement unscanned noSwitch,
      noArguments]
    exact .inl ⟨rfl, readWords_nil⟩
  · refine .inr ⟨closersBehind, depth, ?_, fun other same => ?_⟩
    · rw [List.cons_append, IgnoresBlanks.runWithin_colon]
      exact passes
    · obtain ⟨spansName, spansArguments⟩ := spans other same
      have sameGroup := head?_append_congr same (spanArguments (spanName rest).2).1
      have sameHead := head?_append_congr sameGroup (spanName rest).1
      rw [spanArguments_append] at sameGroup sameHead
      rw [spanName_append] at sameHead
      rw [whole, readWords_pseudo (by rwa [sameHead])
        (by rw [spansName, sameGroup]; exact unscanned) (by rw [spansName]; exact noSwitch),
        spansName, spansArguments]

/-! ## Names -/

/-- A spelling may stand for the name at the beginning of a text. -/
structure Names (spelled text : List Char) : Prop where
  starts : (spelled.head?.map startsName).getD false
  spans : ∀ other, other.head? = (spanName text).2.head? →
    spanName (spelled ++ other) = (spelled, other)
  runs : ∀ closers depth,
    (Standing.bare closers depth).runWithin spelled = some (.bare closers depth) ∨
      (spanName text).2 = [] ∧ spelled = (spanName text).1

theorem names_self (starts : (rest.head?.map startsName).getD false) :
    Names (spanName rest).1 rest := by
  refine ⟨?_, fun other same => spanName_of_goesOnAs (.inr same), fun closers depth => ?_⟩
  · cases rest with
    | nil => cases starts
    | cons first rest =>
      by_cases isBackslash : first = '\\'
      · subst isBackslash
        rw [spanName_backslash]
        exact starts
      · have member : Identifier.isCharacter first := by
          have alpha : first.isAlpha → first.isAlphanum := fun isAlpha => by
            simp [Char.isAlphanum, isAlpha]
          simp only [List.head?_cons, Option.map_some, Option.getD_some, startsName,
            Identifier.isCharacter] at *
          grind
        rw [spanName_cons_of_isCharacter isBackslash member]
        exact starts
  · obtain ⟨escaped, runs, ends⟩ := runWithin_spanName rest closers depth
    cases escaped with
    | false => exact .inl runs
    | true => exact .inr ⟨ends rfl, rfl⟩

theorem names_encode {name : List Char} (named : name ≠ []) :
    Names (Identifier.encode name) rest := by
  refine ⟨?_, fun other same => ?_, fun closers depth => .inl ?_⟩
  · obtain ⟨first, others, encoded, starts⟩ := Identifier.exists_startsName_encode named
    rw [encoded]
    exact starts
  · exact Identifier.spanName_encode_append name
      (endsName_of_goesOnAs (endsName_spanName rest) (.inr same))
  · exact runWithin_bland (Identifier.spells_encode name).bland

theorem names_respelled (respells : Respells respell)
    (starts : (rest.head?.map startsName).getD false) :
    Names (respell (spanName rest).1) rest := by
  rcases respells (spanName rest).1 with same | ⟨name, named, encoded⟩
  · rw [same]
    exact names_self starts
  · rw [encoded]
    exact names_encode named

theorem Names.starts_append {spelled : List Char} (names : Names spelled rest)
    (other : List Char) : ((spelled ++ other).head?.map startsName).getD false := by
  have starts := names.starts
  cases spelled with
  | nil => cases starts
  | cons first others => exact starts

/-- The spelling and what is printed behind it stand for the text that begins with the name. -/
theorem Names.echoes {spelled closers : List Char} {depth : Nat} {final : Standing}
    (names : Names spelled rest) (echo : Echo respell (spanName rest).2 pieces)
    (runs : (Standing.bare closers depth).runWithin rest = some final) (closed : final.IsClosed) :
    (∃ relaxed, (Standing.bare closers depth).runWithin
        (spelled ++ printPieces respell pieces) = some relaxed ∧
      Standing.Relaxes final relaxed) ∧
      readWords (printPieces respell pieces) =
        (selectorWords pieces).map (Word.decode respell) := by
  obtain ⟨escaped, runsName, ends⟩ := runWithin_spanName rest closers depth
  rw [← spanName_append rest, Standing.runWithin_append, runsName, Option.bind_some] at runs
  rw [Standing.runWithin_append]
  cases escaped with
  | false =>
    have runsSpelled : (Standing.bare closers depth).runWithin spelled =
        some (.bare closers depth) := by
      rcases names.runs closers depth with runsSpelled | ⟨_, same⟩
      · exact runsSpelled
      · rw [same]
        exact runsName
    rw [runsSpelled, Option.bind_some]
    exact echo.echoes closers depth final runs closed
  | true =>
    -- The name ends the text, and its last backslash is kept or replaced.
    rw [ends rfl] at runs echo
    obtain rfl := Option.some.inj runs
    obtain ⟨nothing, noWords⟩ := echo.of_nil
    rw [nothing, readWords_nil]
    refine ⟨?_, noWords.symm⟩
    rcases names.runs closers depth with runsSpelled | ⟨_, same⟩
    · rw [runsSpelled]
      exact ⟨.bare closers depth, rfl, Standing.relaxes_bare closers depth⟩
    · rw [same, runsName]
      exact ⟨_, rfl, .refl _⟩

theorem name {sigil : Sigil} (isSigil : sigil = if character = '.' then .dot else .hash)
    (starts : (character = '.' || character = '#') && (rest.head?.map startsName).getD false)
    (respells : Respells respell) (echo : Echo respell (spanName rest).2 pieces) :
    Echo respell (character :: rest) (.name sigil (spanName rest).1 :: pieces) := by
  obtain ⟨mark, startsRest⟩ := Bool.and_eq_true_iff.mp starts
  have sameMark : sigil.character = character := by
    have isMark : character = '.' ∨ character = '#' := by simpa using mark
    rw [isSigil]
    rcases isMark with rfl | rfl <;> rfl
  have neutral := not_special_of_starts starts
  have names := names_respelled respells startsRest
  have prints : printPieces respell (.name sigil (spanName rest).1 :: pieces) =
      character :: (respell (spanName rest).1 ++ printPieces respell pieces) := by
    rw [printPieces, Piece.print, sameMark]
    rfl
  refine ⟨by rw [prints]; rfl, fun closers depth final runs closed => ?_⟩
  rw [Standing.runWithin_cons, Standing.stepWithin_neutral neutral, Option.bind_some] at runs
  obtain ⟨stands, reads⟩ := names.echoes echo runs closed
  rw [prints, Standing.runWithin_cons, Standing.stepWithin_neutral neutral, Option.bind_some]
  refine ⟨stands, ?_⟩
  rw [readWords_name (Bool.and_eq_true_iff.mpr ⟨mark, names.starts_append _⟩),
    names.spans _ echo.head, reads, isSigil]
  rfl

/-! ## Arguments -/

variable {item : List Char}

theorem exists_relaxed (echo : Echo respell (trimCharacters item) pieces) {depth : Nat}
    {final : Standing} (runs : (Standing.bare [] depth).runWithin item = some final)
    (closed : final.IsClosed) :
    ∃ relaxed, (Standing.bare [] depth).runWithin (printPieces respell pieces) = some relaxed ∧
      final.Resembles relaxed ∧
      readWords (printPieces respell pieces) =
        (selectorWords pieces).map (Word.decode respell) := by
  obtain ⟨middle, runsTrimmed, resembles⟩ := exists_run_trimCharacters runs
  obtain ⟨⟨relaxed, runsPrinted, relaxes⟩, reads⟩ :=
    echo.echoes [] depth middle runsTrimmed (resembles.isClosed closed)
  exact ⟨relaxed, runsPrinted, resembles.trans relaxes.toResembles, reads⟩

theorem standsFor (echo : Echo respell (trimCharacters item) pieces)
    (unescaped : endsEscaped (printPieces respell pieces) = false) :
    Standing.StandsFor (printPieces respell pieces) item := by
  intro depth final runs closed
  obtain ⟨relaxed, runsPrinted, resembles, _⟩ := echo.exists_relaxed runs closed
  refine ⟨relaxed, runsPrinted, resembles, fun escaped => ?_⟩
  have atEnd := escaped_of_run (Standing.run_of_runWithin runsPrinted)
  rw [escaped] at atEnd
  exact absurd (atEnd.trans unescaped) nofun

/-- The words that are read in an argument once it is printed and trimmed. -/
theorem readWords_item (echo : Echo respell (trimCharacters item) pieces)
    (keeps : keepsEnd (printPieces respell pieces)) {depth : Nat} {final : Standing}
    (runs : (Standing.bare [] depth).runWithin item = some final) (closed : final.IsClosed) :
    readWords (trimCharacters (printPieces respell pieces)) =
      (selectorWords pieces).map (Word.decode respell) := by
  obtain ⟨relaxed, runsPrinted, resembles, reads⟩ := echo.exists_relaxed runs closed
  rw [(read_trimCharacters runsPrinted (resembles.isClosed closed) keeps).2, reads]

theorem exists_arguments {inside inner : List Char} {piecesOf : List Char → List Piece}
    (runs : (Standing.bare [] 0).run inside = some (.bare inner 0))
    (echoes : ∀ item ∈ commaItems inside, Echo respell (trimCharacters item) (piecesOf item))
    (keeps : ∀ item ∈ commaItems inside, keepsEnd (printPieces respell (piecesOf item)) ∧
      endsEscaped (printPieces respell (piecesOf item)) = false) :
    let printed := [','].intercalate
      ((commaItems inside).map fun item => printPieces respell (piecesOf item))
    (Standing.bare [] 0).run printed = some (.bare inner 0) ∧
      groupWords ('(' :: printed ++ [')']) =
        (listWords ((commaItems inside).map piecesOf)).map (Word.decode respell) := by
  have cuts := Standing.items_cutCommas (Standing.covered_bare [] 0) runs
  have closed : (Standing.bare inner 0).IsClosed := ⟨rfl, .inl rfl⟩
  obtain ⟨relaxed, relaxes, cutsPrinted⟩ := cuts.map _ ⟨0, rfl⟩ closed fun item member =>
    (echoes item member).standsFor (keeps item member).2
  obtain rfl := relaxes.eq_of_unescaped rfl
  refine ⟨Standing.run_of_items cutsPrinted, ?_⟩
  have again : commaItems ([','].intercalate
      ((commaItems inside).map fun item => printPieces respell (piecesOf item))) =
        (commaItems inside).map fun item => printPieces respell (piecesOf item) :=
    Standing.cutCommas_of_items cutsPrinted
  rw [groupWords, argumentItems_group, again, listWords_eq_flatMap, List.flatMap_map,
    List.flatMap_map, List.map_flatMap]
  refine List.flatMap_congr fun item member => ?_
  obtain ⟨depth, last, runsItem, closedItem, _⟩ :=
    Standing.exists_run_of_mem cuts ⟨0, rfl⟩ closed member
  exact (echoes item member).readWords_item (keeps item member).1 runsItem closedItem

theorem exists_inside {closers : List Char} {depth : Nat} {final : Standing}
    (group : (spanName rest).2.head? = some '(')
    (runs : (Standing.bare closers depth).runWithin (':' :: rest) = some final)
    (closed : final.IsClosed) :
    (Standing.bare closers depth).runWithin (spanName rest).1 = some (.bare closers depth) ∧
      ∃ inside after inner closersBehind,
        (spanName rest).2 = '(' :: inside ++ ')' :: after ∧
          (Standing.bare [] 0).run inside = some (.bare inner 0) ∧
          awaited (inner ++ ')' :: closers) ')' = some closersBehind ∧
          (Standing.bare closersBehind depth).runWithin after = some final := by
  rw [IgnoresBlanks.runWithin_colon, ← spanName_append rest, Standing.runWithin_append] at runs
  obtain ⟨escaped, runsName, ends⟩ := runWithin_spanName rest closers depth
  obtain ⟨arguments, isGroup⟩ := List.head?_eq_some_iff.mp group
  obtain rfl : escaped = false := Bool.eq_false_iff.mpr fun holds => by
    rw [ends holds] at isGroup
    cases isGroup
  rw [runsName, Option.bind_some, isGroup] at runs
  obtain ⟨inside, after, inner, closersBehind, rfl, runsInside, awaits, runsAfter⟩ :=
    exists_group runs closed
  exact ⟨runsName, inside, after, inner, closersBehind, isGroup, runsInside, awaits, runsAfter⟩

theorem printPieces_functional (name : List Char) (items : List (List Char))
    (piecesOf : List Char → List Piece) :
    printPieces respell (.functional name (items.map piecesOf) :: pieces) =
      ':' :: (name ++ ('(' :: [','].intercalate (items.map fun item =>
        printPieces respell (piecesOf item)) ++ ')' :: printPieces respell pieces)) := by
  rw [printPieces, Piece.print, printItems_eq_map, List.map_map]
  simp [Function.comp_def]

theorem functional {piecesOf : List Char → List Piece} (noElement : rest.head? ≠ some ':')
    (group : (spanName rest).2.head? = some '(')
    (opening : Lexeme.opening? (spanName rest).1 = some (.opens none))
    (echoes : ∀ item ∈ Piece.argumentItems (spanArguments (spanName rest).2).1,
      Echo respell (trimCharacters item) (piecesOf item))
    (keeps : ∀ item ∈ Piece.argumentItems (spanArguments (spanName rest).2).1,
      keepsEnd (printPieces respell (piecesOf item)) ∧
        endsEscaped (printPieces respell (piecesOf item)) = false)
    (echo : Echo respell (spanArguments (spanName rest).2).2 pieces) :
    Echo respell (':' :: rest) (.functional (spanName rest).1
      ((Piece.argumentItems (spanArguments (spanName rest).2).1).map piecesOf) :: pieces) := by
  refine ⟨rfl, fun closers depth final runs closed => ?_⟩
  obtain ⟨runsName, inside, after, inner, closersBehind, isGroup, runsInside, awaits, runsAfter⟩ :=
    exists_inside group runs closed
  have spans := Standing.spanArguments_group runsInside after
  rw [isGroup, spans] at echo echoes keeps ⊢
  rw [argumentItems_group] at echoes keeps ⊢
  obtain ⟨runsPrinted, words⟩ := exists_arguments runsInside echoes keeps
  obtain ⟨⟨relaxed, runsBehind, relaxes⟩, reads⟩ :=
    echo.echoes closersBehind depth final runsAfter closed
  rw [printPieces_functional]
  generalize [','].intercalate _ = printed at *
  have sameHead : ('(' :: printed ++ ')' :: printPieces respell pieces).head? =
      (spanName rest).2.head? := by
    rw [isGroup]
    rfl
  have spansName := spanName_of_goesOnAs (.inr sameHead)
  have spansPrinted := Standing.spanArguments_group runsPrinted (printPieces respell pieces)
  have noElementPrinted : ((spanName rest).1 ++
      ('(' :: printed ++ ')' :: printPieces respell pieces)).head? ≠ some ':' := by
    rw [head?_append_congr sameHead, spanName_append]
    exact noElement
  rw [IgnoresBlanks.runWithin_colon, Standing.runWithin_append, runsName, Option.bind_some,
    Standing.runWithin_group runsPrinted awaits, readWords_scanned noElementPrinted
      (by rw [spansName]; rfl) (by rw [spansName]; exact opening), spansName, spansPrinted]
  refine ⟨⟨relaxed, runsBehind, relaxes⟩, ?_⟩
  rw [selectorWords, Piece.words, List.map_append, ← words, ← reads]
  rfl

end

end Echo

/-! ## Reading back -/

/-- Whether each selector in arguments is printed with an end that trimming keeps and that does not
escape what ends the selector. -/
def KeepsArguments (respell : List Char → List Char) (pieces : List Piece) : Prop :=
  ∀ printed ∈ selectorPrintedArguments respell pieces,
    keepsEnd printed ∧ endsEscaped printed = false

theorem unscoped_behind {first : Piece} {rest : List Piece}
    (unscoped : .scope ∉ selectorWords (first :: rest)) : .scope ∉ selectorWords rest :=
  fun member => unscoped (List.mem_append_right _ member)

theorem unscoped_item {name : List Char} {items : List (List Char)} {rest : List Piece}
    {piecesOf : List Char → List Piece}
    (unscoped : .scope ∉ selectorWords (.functional name (items.map piecesOf) :: rest)) :
    ∀ item ∈ items, .scope ∉ selectorWords (piecesOf item) := by
  intro item member isScope
  have inItems : .scope ∈ listWords (items.map piecesOf) := by
    rw [listWords_eq_flatMap, List.flatMap_map]
    exact List.mem_flatMap.mpr ⟨item, member, isScope⟩
  exact unscoped (List.mem_append_left _ inItems)

theorem KeepsArguments.behind {respell : List Char → List Char} {first : Piece}
    {rest : List Piece} (keeps : KeepsArguments respell (first :: rest)) :
    KeepsArguments respell rest :=
  fun printed member => keeps printed (List.mem_append_right _ member)

/-- By the cases of cutting into pieces; the selectors in arguments are printed and read first. -/
theorem echo_read {respell : List Char → List Char} {text : List Char}
    (respells : Respells respell) (unscoped : .scope ∉ selectorWords (Piece.read text))
    (keeps : KeepsArguments respell (Piece.read text)) :
    Echo respell text (Piece.read text) := by
  fun_induction Piece.read text with
  | case1 => exact .nil respell
  | case2 rest induction =>
    have echo := (induction (unscoped_behind unscoped) keeps.behind).copied
      (Echo.copied_backslash rest) (List.cons_ne_nil _ _)
    rwa [List.cons_append, List.take_append_drop] at echo
  | case3 character rest _ opens span induction =>
    have echo := (induction (unscoped_behind unscoped) keeps.behind).copied
      (Echo.copied_shield opens) (List.cons_ne_nil _ _)
    rwa [List.cons_append, spanShield_append] at echo
  | case4 character rest _ _ starts span induction =>
    exact .name rfl starts respells (induction (unscoped_behind unscoped) keeps.behind)
  | case5 character rest _ _ _ element name arguments induction =>
    obtain ⟨rfl, isColon⟩ : character = ':' ∧ rest.head? = some ':' := by simpa using element
    obtain ⟨rest, rfl⟩ := List.head?_eq_some_iff.mp isColon
    have echo := (induction (unscoped_behind unscoped) keeps.behind).copied Echo.copied_element
      (List.cons_ne_nil _ _)
    rwa [List.append_assoc, spanArguments_append, List.cons_append, List.cons_append,
      spanName_append] at echo
  | case6 => exact absurd List.mem_cons_self unscoped
  | case7 => exact absurd List.mem_cons_self unscoped
  | case8 rest name arguments items noScope functional _ _ _ noElement inside induction =>
    obtain ⟨group, takes⟩ := Bool.and_eq_true_iff.mp functional
    have sameItems : (items.attach.map fun item => Piece.read (trimCharacters item.val)) =
        items.map fun item => Piece.read (trimCharacters item) := by simp
    have keepsBehind := keeps.behind
    rw [sameItems] at unscoped keeps ⊢
    have unscopedItem := unscoped_item unscoped
    have keepsItems : ∀ printed ∈ listPrinted respell (items.map fun item =>
        Piece.read (trimCharacters item)), keepsEnd printed ∧ endsEscaped printed = false :=
      fun printed member => keeps printed (List.mem_append_left _ member)
    rw [listPrinted_eq_flatMap, List.flatMap_map] at keepsItems
    refine .functional (by simpa using noElement)
      ((isEmpty_spanArguments _).mp (by simpa using group))
      (opening?_of_takesSelectors noScope takes)
      (fun item member =>
        inside ⟨item, member⟩ (unscopedItem item member) fun printed isPrinted => ?_)
      (fun item member => ?_) (induction (unscoped_behind unscoped) keepsBehind)
    · exact keepsItems printed
        (List.mem_flatMap.mpr ⟨item, member, List.mem_cons_of_mem _ isPrinted⟩)
    · exact keepsItems _ (List.mem_flatMap.mpr ⟨item, member, List.mem_cons_self⟩)
  | case9 rest name arguments noScope verbatim _ _ _ noElement induction =>
    have echo := (induction (unscoped_behind unscoped) keeps.behind).copied
      (Echo.copied_pseudo (by simpa using noElement) (opening?_of_verbatim noScope verbatim)
        noScope)
      (List.cons_ne_nil _ _)
    rwa [List.append_assoc, spanArguments_append, List.cons_append, spanName_append] at echo
  | case10 character rest noBackslash noShield noName _ noColon induction =>
    exact (induction (unscoped_behind unscoped) keeps.behind).copied
      (Echo.copied_skip noBackslash noShield noName noColon) (List.cons_ne_nil _ _)

end ScopedStyles.Selector
