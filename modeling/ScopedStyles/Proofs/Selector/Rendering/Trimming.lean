import ScopedStyles.Proofs.Selector.Passage
import ScopedStyles.Proofs.Selector.Rendering.Respelling

/-!
White space at the end of a selector. It means nothing unless it is escaped: a class whose name ends
in the code of a character keeps its name when it takes the white space in, and everything else is
read as it was.
-/

namespace ScopedStyles.Selector

open Text

/-! ## The words that are read -/

/-- The words of a selector, their names decoded. -/
def readWords (text : List Char) : List Word :=
  (selectorWords (Piece.read text)).map (Word.decode id)

section

variable {character : Char} {rest : List Char}

theorem opens_nothing (neutral : character ∉ Nesting.special) :
    character ≠ '\\' ∧ ¬ (Shield.opened character).isSome := by
  simp only [Nesting.special, List.mem_cons, List.not_mem_nil, or_false, not_or] at neutral
  exact ⟨neutral.1, by simp [Shield.opened, isQuote, neutral]⟩

theorem readWords_nil : readWords [] = [] := by
  rw [readWords, Piece.read]
  rfl

theorem readWords_backslash : readWords ('\\' :: rest) = readWords (rest.drop 1) := by
  rw [readWords, Piece.read, if_pos rfl]
  rfl

theorem readWords_shield (opens : (Shield.opened character).isSome) :
    readWords (character :: rest) =
      readWords (spanShield ⟨Shield.opened character, false⟩ rest).2 := by
  have noBackslash : character ≠ '\\' := by
    rintro rfl
    cases opens
  rw [readWords, Piece.read, if_neg noBackslash, if_pos opens]
  rfl

theorem readWords_name (starts : (character = '.' || character = '#') &&
      (rest.head?.map startsName).getD false) :
    readWords (character :: rest) =
      .name (if character = '.' then .dot else .hash) (Identifier.decode (spanName rest).1) ::
        readWords (spanName rest).2 := by
  obtain ⟨noBackslash, noShield⟩ := opens_nothing (not_special_of_starts starts)
  rw [readWords, Piece.read, if_neg noBackslash, if_neg noShield, if_pos starts]
  rfl

theorem readWords_element :
    readWords (':' :: ':' :: rest) = readWords (spanArguments (spanName rest).2).2 := by
  rw [readWords, Piece.read]
  simp [Shield.opened, isQuote, selectorWords, Piece.words, readWords]

theorem readWords_switch {isGlobal : Bool} (noElement : rest.head? ≠ some ':')
    (noGroup : (spanName rest).2.head? ≠ some '(')
    (scope : Piece.scope? (spanName rest).1 = some isGlobal) :
    readWords (':' :: rest) = .scope :: readWords ((spanName rest).2.dropWhile isBlank) := by
  rw [readWords, Piece.read]
  simp [Shield.opened, isQuote, noElement, scope, spanArguments_of_head noGroup, selectorWords,
    Piece.words, readWords, Word.decode]

def groupWords (group : List Char) : List Word :=
  (Piece.argumentItems group).flatMap fun item => readWords (trimCharacters item)

theorem groupWords_eq (group : List Char) :
    (listWords ((Piece.argumentItems group).attach.map fun item =>
        Piece.read (trimCharacters item.val))).map (Word.decode id) = groupWords group := by
  rw [listWords_eq_flatMap]
  simp [List.map_flatMap, List.flatMap_map, groupWords, readWords]

theorem readWords_scanned {wraps : Option Bool} (noElement : rest.head? ≠ some ':')
    (group : (spanName rest).2.head? = some '(')
    (opening : Lexeme.opening? (spanName rest).1 = some (.opens wraps)) :
    readWords (':' :: rest) =
      (if wraps.isSome then [.scope] else []) ++
        (groupWords (spanArguments (spanName rest).2).1 ++
          readWords (spanArguments (spanName rest).2).2) := by
  have isGroup := (isEmpty_spanArguments _).mpr group
  unfold Lexeme.opening? at opening
  rw [readWords, Piece.read, if_neg (by decide), if_neg (by decide), if_neg (by simp),
    if_neg (by simpa using noElement), if_pos rfl, ← groupWords_eq]
  cases scope : Piece.scope? (spanName rest).1 with
  | some isGlobal =>
    rw [scope] at opening
    cases opening
    simp only [scope, isGroup, Bool.false_eq_true, if_false, selectorWords, Piece.words,
      List.map_append, List.map_cons]
    rfl
  | none =>
    rw [scope] at opening
    dsimp only at opening
    split at opening
    · rename_i takes
      cases opening
      simp only [scope, isGroup, takes, Bool.not_false, Bool.and_self, if_true, selectorWords,
        Piece.words, List.map_append]
      rfl
    · cases opening

theorem readWords_pseudo (noElement : rest.head? ≠ some ':')
    (unscanned : (spanName rest).2.head? = some '(' → Lexeme.opening? (spanName rest).1 = none)
    (noSwitch : Piece.scope? (spanName rest).1 = none) :
    readWords (':' :: rest) = readWords (spanArguments (spanName rest).2).2 := by
  have verbatim : ¬ (!(spanArguments (spanName rest).2).1.isEmpty &&
      Piece.takesSelectors (spanName rest).1) = true := by
    intro functional
    obtain ⟨isGroup, takes⟩ := Bool.and_eq_true_iff.mp functional
    have group := (isEmpty_spanArguments _).mp (by simpa using isGroup)
    have opening := unscanned group
    simp [Lexeme.opening?, noSwitch, takes] at opening
  rw [readWords, Piece.read, if_neg (by decide), if_neg (by decide), if_neg (by simp),
    if_neg (by simpa using noElement), if_pos rfl]
  simp only [noSwitch, verbatim]
  rfl

theorem readWords_skip (noBackslash : character ≠ '\\')
    (noShield : ¬ (Shield.opened character).isSome)
    (noName : ¬ ((character = '.' || character = '#') && (rest.head?.map startsName).getD false))
    (noColon : character ≠ ':') : readWords (character :: rest) = readWords rest := by
  rw [readWords, Piece.read]
  simp [noBackslash, noShield, noName, noColon, selectorWords, Piece.words, readWords]

end

/-! ## White space behind a selector -/

def Blanks (blanks : List Char) : Prop :=
  ∀ character ∈ blanks, isBlank character ∧ ¬ isWide character

section

variable {blanks : List Char}

theorem Blanks.append {others : List Char} :
    Blanks (blanks ++ others) ↔ Blanks blanks ∧ Blanks others :=
  List.forall_mem_append

theorem Blanks.endsSelector (blank : Blanks blanks) : endsSelector blanks := by
  induction blanks with
  | nil => rfl
  | cons first blanks induction =>
    obtain ⟨⟨isBlank, isAscii⟩, behind⟩ := List.forall_mem_cons.mp blank
    simp [Selector.endsSelector, isBlank, isAscii, induction behind]

theorem readWords_blank {character : Char} (blank : isBlank character) (rest : List Char) :
    readWords (character :: rest) = readWords rest := by
  obtain ⟨noBackslash, noShield⟩ := opens_nothing (not_special_of_isBlank blank)
  have other : character ≠ '.' ∧ character ≠ '#' ∧ character ≠ ':' := by
    refine ⟨?_, ?_, ?_⟩ <;> rintro rfl <;> exact absurd blank (by decide)
  exact readWords_skip noBackslash noShield (by simp [other]) other.2.2

theorem readWords_blanks (blank : ∀ character ∈ blanks, isBlank character) (rest : List Char) :
    readWords (blanks ++ rest) = readWords rest := by
  induction blanks with
  | nil => rfl
  | cons first blanks induction =>
    rw [List.cons_append, readWords_blank (blank first List.mem_cons_self),
      induction fun other member => blank other (List.mem_cons_of_mem _ member)]

theorem readWords_dropWhile (text : List Char) :
    readWords (text.dropWhile isBlank) = readWords text := by
  have split := @List.takeWhile_append_dropWhile _ isBlank text
  have blank : ∀ character ∈ text.takeWhile isBlank, isBlank character := fun _ =>
    List.all_eq_true.mp List.all_takeWhile _
  calc readWords (text.dropWhile isBlank)
      = readWords (text.takeWhile isBlank ++ text.dropWhile isBlank) :=
        (readWords_blanks blank _).symm
    _ = readWords text := by rw [split]

/-- A name takes some of the white space behind its selector, and leaves white space. -/
theorem exists_takes_blanks {text closers : List Char} {depth : Nat} {final : Standing}
    (runs : (Standing.bare closers depth).runWithin text = some final)
    (unescaped : final.shield.escaped = false) (blank : Blanks blanks) :
    ∃ lost kept, Takes final text blanks lost kept ∧ Blanks kept := by
  obtain ⟨lost, kept, takes⟩ := exists_takes runs blank.endsSelector (.of_unescaped unescaped _)
  exact ⟨lost, kept, takes, (Blanks.append.mp (takes.swallows.whole ▸ blank)).2⟩

/-- White space behind a selector adds nothing to what is read. -/
def IgnoresBlanks (text : List Char) : Prop :=
  ∀ (closers : List Char) (depth : Nat) (final : Standing) (blanks : List Char),
    (Standing.bare closers depth).runWithin text = some final → final.IsClosed →
      final.shield.escaped = false → Blanks blanks → readWords (text ++ blanks) = readWords text

end

namespace IgnoresBlanks

section

variable {rest : List Char} {character : Char}

theorem nil : IgnoresBlanks [] := by
  intro closers depth final blanks runs closed unescaped blank
  have nothing := readWords_blanks (fun character member => (blank character member).1) []
  rwa [List.append_nil] at nothing

theorem backslash (behind : IgnoresBlanks (rest.drop 1)) : IgnoresBlanks ('\\' :: rest) := by
  intro closers depth final blanks runs closed unescaped blank
  cases rest with
  | nil =>
    obtain rfl := Option.some.inj runs
    cases unescaped
  | cons first rest =>
    rw [Standing.runWithin_escape] at runs
    rw [List.cons_append, readWords_backslash, readWords_backslash]
    exact behind closers depth final blanks runs closed unescaped blank

theorem shield (opens : (Shield.opened character).isSome)
    (behind : IgnoresBlanks (spanShield ⟨Shield.opened character, false⟩ rest).2) :
    IgnoresBlanks (character :: rest) := by
  intro closers depth final blanks runs closed unescaped blank
  obtain ⟨closersInside, steps⟩ := exists_stepWithin_opened opens closers depth
  rw [Standing.runWithin_cons, steps, Option.bind_some] at runs
  have inside := Option.isSome_iff_ne_none.mp opens
  obtain ⟨⟨closersBehind, runsInside⟩, _⟩ := exists_spanShield inside runs closed.1
  have spans := spanShield_append_tail inside runs closed.1 blanks
  rw [← spanShield_append ⟨Shield.opened character, false⟩ rest, Standing.runWithin_append,
    runsInside, Option.bind_some] at runs
  rw [List.cons_append, readWords_shield opens, readWords_shield opens, spans]
  exact behind closersBehind depth final blanks runs closed unescaped blank

theorem skip (noBackslash : character ≠ '\\') (noShield : ¬ (Shield.opened character).isSome)
    (noName : ¬ ((character = '.' || character = '#') && (rest.head?.map startsName).getD false))
    (noColon : character ≠ ':') (behind : IgnoresBlanks rest) :
    IgnoresBlanks (character :: rest) := by
  intro closers depth final blanks runs closed unescaped blank
  obtain ⟨next, steps, runs⟩ := Option.bind_eq_some_iff.mp runs
  rw [Standing.eq_bare_of_stepWithin noBackslash (by simpa using noShield) steps] at runs
  have noNameBehind : ¬ ((character = '.' || character = '#') &&
      ((rest ++ blanks).head?.map startsName).getD false) := by
    rwa [startsName_append blank.endsSelector]
  rw [List.cons_append, readWords_skip noBackslash noShield noNameBehind noColon,
    readWords_skip noBackslash noShield noName noColon]
  exact behind _ _ final blanks runs closed unescaped blank

theorem name (starts : (character = '.' || character = '#') &&
      (rest.head?.map startsName).getD false)
    (behind : IgnoresBlanks (spanName rest).2) : IgnoresBlanks (character :: rest) := by
  intro closers depth final blanks runs closed unescaped blank
  rw [Standing.runWithin_cons, Standing.stepWithin_neutral (not_special_of_starts starts),
    Option.bind_some] at runs
  obtain ⟨lost, kept, takes, blankKept⟩ := exists_takes_blanks runs unescaped blank
  rw [List.cons_append, readWords_name (by rwa [startsName_append blank.endsSelector]),
    readWords_name starts, takes.spans, takes.decodes unescaped]
  exact congrArg _ (behind closers depth final kept (runWithin_behind_spanName runs unescaped)
    closed unescaped blankKept)

theorem behindArguments {blanks closers : List Char} {depth : Nat} {final : Standing}
    {lost kept : List Char} (behind : IgnoresBlanks (spanArguments (spanName rest).2).2)
    (runs : (Standing.bare closers depth).runWithin rest = some final) (closed : final.IsClosed)
    (unescaped : final.shield.escaped = false) (takes : Takes final rest blanks lost kept)
    (blankKept : Blanks kept) :
    spanArguments (spanName (rest ++ blanks)).2 =
        ((spanArguments (spanName rest).2).1, (spanArguments (spanName rest).2).2 ++ kept) ∧
      readWords (spanArguments (spanName (rest ++ blanks)).2).2 =
        readWords (spanArguments (spanName rest).2).2 := by
  have runsBehind := runWithin_behind_spanName runs unescaped
  have spans := spanArguments_append_tail runsBehind closed blankKept.endsSelector
  obtain ⟨⟨closersBehind, runsArguments⟩, _⟩ := exists_spanArguments runsBehind closed
  rw [← spanArguments_append (spanName rest).2, Standing.runWithin_append, runsArguments,
    Option.bind_some] at runsBehind
  rw [takes.spans]
  dsimp only
  rw [spans]
  exact ⟨rfl, behind closersBehind depth final kept runsBehind closed unescaped blankKept⟩

theorem runWithin_colon {closers : List Char} {depth : Nat} :
    (Standing.bare closers depth).runWithin (':' :: rest) =
      (Standing.bare closers depth).runWithin rest := by
  rw [Standing.runWithin_cons, Standing.stepWithin_neutral (by decide), Option.bind_some]

theorem element (behind : IgnoresBlanks (spanArguments (spanName rest).2).2) :
    IgnoresBlanks (':' :: ':' :: rest) := by
  intro closers depth final blanks runs closed unescaped blank
  rw [runWithin_colon, runWithin_colon] at runs
  obtain ⟨lost, kept, takes, blankKept⟩ := exists_takes_blanks runs unescaped blank
  rw [List.cons_append, List.cons_append, readWords_element, readWords_element]
  exact (behind.behindArguments runs closed unescaped takes blankKept).2

theorem pseudo (noElement : rest.head? ≠ some ':')
    (unscanned : (spanName rest).2.head? = some '(' → Lexeme.opening? (spanName rest).1 = none)
    (noSwitch : Piece.scope? (spanName rest).1 = none)
    (behind : IgnoresBlanks (spanArguments (spanName rest).2).2) :
    IgnoresBlanks (':' :: rest) := by
  intro closers depth final blanks runs closed unescaped blank
  rw [runWithin_colon] at runs
  obtain ⟨lost, kept, takes, blankKept⟩ := exists_takes_blanks runs unescaped blank
  have noElementBehind := mt (head?_append blank.endsSelector rest (.inl rfl)).mp noElement
  rw [List.cons_append, readWords_pseudo noElementBehind, readWords_pseudo noElement unscanned
    noSwitch]
  · exact (behind.behindArguments runs closed unescaped takes blankKept).2
  · rw [takes.spans]
    dsimp only
    rw [head?_append blankKept.endsSelector _ (.inr rfl), takes.opening?_append.1]
    exact unscanned
  · rw [takes.spans]
    exact takes.opening?_append.2.trans noSwitch

theorem switch {isGlobal : Bool} (noElement : rest.head? ≠ some ':')
    (noGroup : (spanName rest).2.head? ≠ some '(')
    (scope : Piece.scope? (spanName rest).1 = some isGlobal)
    (behind : IgnoresBlanks ((spanName rest).2.dropWhile isBlank)) :
    IgnoresBlanks (':' :: rest) := by
  intro closers depth final blanks runs closed unescaped blank
  rw [runWithin_colon] at runs
  obtain ⟨lost, kept, takes, blankKept⟩ := exists_takes_blanks runs unescaped blank
  have noElementBehind := mt (head?_append blank.endsSelector rest (.inl rfl)).mp noElement
  have noGroupBehind := mt (head?_append blankKept.endsSelector _ (.inr rfl)).mp noGroup
  rw [List.cons_append, readWords_switch noElementBehind
    (by rw [takes.spans]; exact noGroupBehind)
    (by rw [takes.spans]; exact takes.opening?_append.2.trans scope),
    readWords_switch noElement noGroup scope, takes.spans]
  have blankFront : ∀ character ∈ (spanName rest).2.takeWhile isBlank, isBlank character :=
    fun _ => List.all_eq_true.mp List.all_takeWhile _
  have split := @List.takeWhile_append_dropWhile _ isBlank (spanName rest).2
  have runsBehind := runWithin_behind_spanName runs unescaped
  rw [← split, Standing.runWithin_neutral fun character member =>
    not_special_of_isBlank (blankFront character member)] at runsBehind
  have same := behind closers depth final kept runsBehind closed unescaped blankKept
  rw [readWords_dropWhile, ← split, List.append_assoc, readWords_blanks blankFront, same, split]

theorem scanned {wraps : Option Bool} (noElement : rest.head? ≠ some ':')
    (group : (spanName rest).2.head? = some '(')
    (opening : Lexeme.opening? (spanName rest).1 = some (.opens wraps))
    (behind : IgnoresBlanks (spanArguments (spanName rest).2).2) :
    IgnoresBlanks (':' :: rest) := by
  intro closers depth final blanks runs closed unescaped blank
  rw [runWithin_colon] at runs
  obtain ⟨lost, kept, takes, blankKept⟩ := exists_takes_blanks runs unescaped blank
  have noElementBehind := mt (head?_append blank.endsSelector rest (.inl rfl)).mp noElement
  obtain ⟨spans, same⟩ := behind.behindArguments runs closed unescaped takes blankKept
  have groupBehind := (head?_append blankKept.endsSelector _ (.inr rfl)).mpr group
  rw [List.cons_append, readWords_scanned noElementBehind
    (by rw [takes.spans]; exact groupBehind)
    (by rw [takes.spans]; exact takes.opening?_append.1.trans opening),
    readWords_scanned noElement group opening, same, spans]

end

end IgnoresBlanks

/-- By the cases of cutting into pieces. -/
theorem ignoresBlanks (text : List Char) : IgnoresBlanks text := by
  fun_induction Piece.read text with
  | case1 => exact .nil
  | case2 rest induction => exact induction.backslash
  | case3 character rest _ opens span induction => exact .shield opens induction
  | case4 character rest _ _ starts span induction => exact .name starts induction
  | case5 character rest _ _ _ element name arguments induction =>
    obtain ⟨rfl, isColon⟩ : character = ':' ∧ rest.head? = some ':' := by simpa using element
    obtain ⟨rest, rfl⟩ := List.head?_eq_some_iff.mp isColon
    exact .element induction
  | case6 rest name arguments isGlobal scope noArguments _ _ _ noElement induction =>
    refine .switch (by simpa using noElement) ?_ scope induction
    exact mt (isEmpty_spanArguments _).mpr (by simpa using noArguments)
  | case7 rest name arguments items isGlobal scope group _ _ _ noElement _ induction =>
    have opening : Lexeme.opening? name.1 = some (.opens (some isGlobal)) := by
      simp [Lexeme.opening?, scope]
    exact .scanned (by simpa using noElement)
      ((isEmpty_spanArguments _).mp (by simpa using group)) opening induction
  | case8 rest name arguments items noScope functional _ _ _ noElement _ induction =>
    obtain ⟨group, takes⟩ := Bool.and_eq_true_iff.mp functional
    exact .scanned (by simpa using noElement) ((isEmpty_spanArguments _).mp (by simpa using group))
      (opening?_of_takesSelectors noScope takes) induction
  | case9 rest name arguments noScope verbatim _ _ _ noElement induction =>
    exact .pseudo (by simpa using noElement) (opening?_of_verbatim noScope verbatim) noScope
      induction
  | case10 character rest noBackslash noShield noName _ noColon induction =>
    exact .skip noBackslash noShield noName noColon induction

/-! ## Trimming -/

/-- Whether a text ends in a backslash that would escape what follows. -/
def endsEscaped (text : List Char) : Bool :=
  text.foldl (fun escaped character => !escaped && character == '\\') false

/-- Whether trimming takes nothing off the end but white space of ASCII that is not escaped. -/
def keepsEnd (text : List Char) : Bool :=
  let lost := (text.dropWhile isBlank).drop (trimCharacters text).length
  lost.isEmpty ||
    (!endsEscaped (trimCharacters text) && lost.all fun character => !isWide character)

example : keepsEnd ".a ".toList = true ∧ keepsEnd ".a\\31 ".toList = true := by decide +kernel
example : keepsEnd ".a\\ ".toList = false ∧ keepsEnd ".a\u00a0".toList = false := by decide +kernel

section

variable {text blanks closers : List Char} {standing final : Standing} {depth slack : Nat}

theorem exists_lost (text : List Char) :
    ∃ lost, text.dropWhile isBlank = trimCharacters text ++ lost ∧
      ∀ character ∈ lost, isBlank character := by
  refine ⟨((text.dropWhile isBlank).reverse.takeWhile isBlank).reverse, ?_, fun _ member => ?_⟩
  · rw [trimCharacters, ← List.reverse_append, List.takeWhile_append_dropWhile,
      List.reverse_reverse]
  · exact List.all_eq_true.mp List.all_takeWhile _ (List.mem_reverse.mp member)

theorem exists_trimmed (keeps : keepsEnd text) :
    ∃ front lost, text = front ++ (trimCharacters text ++ lost) ∧
      (∀ character ∈ front, isBlank character) ∧ Blanks lost ∧
      (lost = [] ∨ endsEscaped (trimCharacters text) = false) := by
  obtain ⟨lost, split, blank⟩ := exists_lost text
  have ends : lost = [] ∨ endsEscaped (trimCharacters text) = false ∧
      ∀ character ∈ lost, isWide character = false := by
    simpa [keepsEnd, split] using keeps
  refine ⟨text.takeWhile isBlank, lost, ?_, fun _ => List.all_eq_true.mp List.all_takeWhile _,
    fun character member => ⟨blank character member, ?_⟩, ends.imp id And.left⟩
  · rw [← split, List.takeWhile_append_dropWhile]
  · rcases ends with rfl | ⟨_, ascii⟩
    · cases member
    · exact Bool.eq_false_iff.mp (ascii character member)

theorem escaped_of_run (runs : standing.run text = some final) :
    final.shield.escaped =
      text.foldl (fun escaped character => !escaped && character == '\\')
        standing.shield.escaped := by
  induction text generalizing standing with
  | nil =>
    obtain rfl := Option.some.inj runs
    rfl
  | cons character text induction =>
    obtain ⟨behind, steps, runs⟩ := Option.bind_eq_some_iff.mp runs
    rw [induction runs, (Standing.closers_of_step steps).2, Shield.escaped_next, List.foldl_cons]

/-- A selector that keeps its end is read the same when it is trimmed. -/
theorem read_trimCharacters (runs : (Standing.bare closers depth).runWithin text = some final)
    (closed : final.IsClosed) (keeps : keepsEnd text) :
    (Standing.bare closers depth).runWithin (trimCharacters text) = some final ∧
      readWords (trimCharacters text) = readWords text := by
  obtain ⟨front, lost, whole, blankFront, blankLost, ends⟩ := exists_trimmed keeps
  generalize trimCharacters text = kept at *
  subst whole
  rw [Standing.runWithin_neutral fun character member =>
    not_special_of_isBlank (blankFront character member), Standing.runWithin_append] at runs
  obtain ⟨middle, runsKept, runsLost⟩ := Option.bind_eq_some_iff.mp runs
  rw [readWords_blanks blankFront]
  rcases ends with rfl | unescaped
  · obtain rfl := Option.some.inj runsLost
    exact ⟨runsKept, by rw [List.append_nil]⟩
  · have runsAll := Standing.run_of_runWithin runsKept
    have atEnd : middle.shield.escaped = false := (escaped_of_run runsAll).trans unescaped
    rw [runWithin_blanks ((Standing.covered_bare closers depth).run runsAll) atEnd
      fun character member => (blankLost character member).1] at runsLost
    obtain rfl := Option.some.inj runsLost
    exact ⟨runsKept,
      (ignoresBlanks kept closers depth middle lost runsKept closed atEnd blankLost).symm⟩

end

end ScopedStyles.Selector
