import ScopedStyles.Proofs.Selector.Rendering.Echo

/-!
Plain white space: it is of ASCII, and no backslash escapes it. Trimming cuts nothing else off a
text with plain white space, and what is printed of the selectors in such a text has plain white
space too, unless names are spelled anew with other white space in them. So trimming keeps all ends.
-/

namespace ScopedStyles.Selector

open Text

/-- Whether all white space is of ASCII and not escaped, behind a backslash or not. -/
def hasPlainBlanksFrom : Bool → List Char → Bool
  | _, [] => true
  | escaped, character :: rest =>
    (!isBlank character || (!escaped && !isWide character)) &&
      hasPlainBlanksFrom (!escaped && character == '\\') rest

def hasPlainBlanks (text : List Char) : Bool :=
  hasPlainBlanksFrom false text

example : hasPlainBlanks ".a\\31  > .b\\\\ ".toList = true := by decide +kernel
example : hasPlainBlanks ".a\\ .b".toList = false := by decide +kernel

section

variable {text rest closers : List Char} {character : Char} {depth : Nat} {final : Standing}

theorem hasPlainBlanksFrom_append (escaped : Bool) (text rest : List Char) :
    hasPlainBlanksFrom escaped (text ++ rest) =
      (hasPlainBlanksFrom escaped text && hasPlainBlanksFrom
        (text.foldl (fun escaped character => !escaped && character == '\\') escaped) rest) := by
  induction text generalizing escaped with
  | nil => rfl
  | cons first text induction =>
    simp [hasPlainBlanksFrom, induction, Bool.and_assoc]

theorem hasPlainBlanks_append (unescaped : endsEscaped text = false) :
    hasPlainBlanks (text ++ rest) ↔ hasPlainBlanks text ∧ hasPlainBlanks rest := by
  unfold endsEscaped at unescaped
  rw [hasPlainBlanks, hasPlainBlanksFrom_append, unescaped]
  exact Bool.and_eq_true_iff

theorem hasPlainBlanks_cons (visible : ¬ isBlank character) (plain : character ≠ '\\') :
    hasPlainBlanks (character :: rest) ↔ hasPlainBlanks rest := by
  have unescaped : (character == '\\') = false := by simpa using plain
  simp [hasPlainBlanks, hasPlainBlanksFrom, visible, unescaped]

theorem hasPlainBlanksFrom_of_visible (visible : ∀ character ∈ text, ¬ isBlank character)
    (escaped : Bool) : hasPlainBlanksFrom escaped text := by
  induction text generalizing escaped with
  | nil => rfl
  | cons first text induction =>
    obtain ⟨visibleFirst, visible⟩ := List.forall_mem_cons.mp visible
    simp [hasPlainBlanksFrom, visibleFirst, induction visible]

theorem endsEscaped_append (unescaped : endsEscaped text = false) :
    endsEscaped (text ++ rest) = endsEscaped rest := by
  unfold endsEscaped at *
  rw [List.foldl_append, unescaped]

theorem endsEscaped_of_run (runs : (Standing.bare closers depth).run text = some final) :
    endsEscaped text = final.shield.escaped :=
  (escaped_of_run runs).symm

theorem endsEscaped_of_runWithin
    (runs : (Standing.bare closers depth).runWithin text = some final) :
    endsEscaped text = final.shield.escaped :=
  endsEscaped_of_run (Standing.run_of_runWithin runs)

/-! ## Trimming -/

theorem ascii_of_hasPlainBlanksFrom {escaped : Bool} (plain : hasPlainBlanksFrom escaped text)
    (member : character ∈ text) (blank : isBlank character) : isWide character = false := by
  induction text generalizing escaped with
  | nil => cases member
  | cons first text induction =>
    obtain ⟨plainFirst, plain⟩ := Bool.and_eq_true_iff.mp plain
    rcases List.mem_cons.mp member with rfl | member
    · simp only [blank, Bool.not_true, Bool.false_or, Bool.and_eq_true,
        Bool.not_eq_true'] at plainFirst
      exact plainFirst.2
    · exact induction plain member

theorem hasPlainBlanks_dropWhile (plain : hasPlainBlanks text) :
    hasPlainBlanks (text.dropWhile isBlank) := by
  induction text with
  | nil => rfl
  | cons first text induction =>
    by_cases blank : isBlank first
    · have unescaped : (first == '\\') = false := by
        simpa using (opens_nothing (not_special_of_isBlank blank)).1
      have behind := (Bool.and_eq_true_iff.mp plain).2
      rw [unescaped] at behind
      rw [List.dropWhile_cons_of_pos blank]
      exact induction behind
    · rwa [List.dropWhile_cons_of_neg blank]

theorem hasPlainBlanks_trimCharacters (plain : hasPlainBlanks text) :
    hasPlainBlanks (trimCharacters text) := by
  obtain ⟨lost, split, _⟩ := exists_lost text
  have behind := hasPlainBlanks_dropWhile plain
  rw [split, hasPlainBlanks, hasPlainBlanksFrom_append] at behind
  exact (Bool.and_eq_true_iff.mp behind).1

theorem keepsEnd_of_hasPlainBlanks (plain : hasPlainBlanks text) : keepsEnd text := by
  obtain ⟨lost, split, blank⟩ := exists_lost text
  have behind := hasPlainBlanks_dropWhile plain
  rw [split, hasPlainBlanks, hasPlainBlanksFrom_append] at behind
  have plainLost : hasPlainBlanksFrom (endsEscaped (trimCharacters text)) lost :=
    (Bool.and_eq_true_iff.mp behind).2
  rw [keepsEnd, split, List.drop_left]
  cases lost with
  | nil => rfl
  | cons first lost =>
    have unescaped : endsEscaped (trimCharacters text) = false := by
      have plainFirst := (Bool.and_eq_true_iff.mp plainLost).1
      simp only [blank first List.mem_cons_self, Bool.not_true, Bool.false_or, Bool.and_eq_true,
        Bool.not_eq_true'] at plainFirst
      exact plainFirst.1
    have ascii : ∀ character ∈ first :: lost, isWide character = false := fun character member =>
      ascii_of_hasPlainBlanksFrom plainLost member (blank character member)
    rw [unescaped]
    simpa using ascii

end

/-! ## Lists -/

section

variable {standing final : Standing} {text item : List Char} {items : List (List Char)}

theorem hasPlainBlanks_of_mem (cuts : Standing.Items final standing text items)
    (atStart : ∃ depth, standing = .bare [] depth) (plain : hasPlainBlanks text)
    (member : item ∈ items) : hasPlainBlanks item := by
  induction cuts with
  | last =>
    obtain rfl := List.mem_singleton.mp member
    exact plain
  | @more standing other text items depthBehind runs behind induction =>
    obtain ⟨depth, rfl⟩ := atStart
    obtain ⟨plainItem, plainBehind⟩ :=
      (hasPlainBlanks_append (endsEscaped_of_runWithin runs)).mp plain
    rcases List.mem_cons.mp member with rfl | member
    · exact plainItem
    · exact induction ⟨depthBehind, rfl⟩
        ((hasPlainBlanks_cons (by decide) (by decide)).mp plainBehind) member

theorem hasPlainBlanks_intercalate
    (each : ∀ item ∈ items, hasPlainBlanks item ∧ endsEscaped item = false) :
    hasPlainBlanks ([','].intercalate items) ∧ endsEscaped ([','].intercalate items) = false := by
  induction items with
  | nil => exact ⟨rfl, rfl⟩
  | cons first items induction =>
    obtain ⟨⟨plain, unescaped⟩, each⟩ := List.forall_mem_cons.mp each
    cases items with
    | nil =>
      rw [List.intercalate_singleton]
      exact ⟨plain, unescaped⟩
    | cons second items =>
      obtain ⟨plainBehind, unescapedBehind⟩ := induction each
      have separator : endsEscaped [','] = false := by decide
      rw [List.intercalate_cons_cons, List.append_assoc, hasPlainBlanks_append unescaped,
        endsEscaped_append unescaped, endsEscaped_append separator]
      exact ⟨⟨plain, (hasPlainBlanks_cons (by decide) (by decide)).mpr plainBehind⟩,
        unescapedBehind⟩

end

/-! ## Names -/

/-- Names stay as they are spelled, or are spelled anew and have no white space but control
characters, which are spelled by their codes. -/
def RespellsPlainly (respell : List Char → List Char) : Prop :=
  ∀ spelling, respell spelling = spelling ∨ ∃ name, name ≠ [] ∧
    respell spelling = Identifier.encode name ∧
      ∀ character ∈ name, isBlank character → character.toNat < 32

theorem RespellsPlainly.respells {respell : List Char → List Char}
    (plainly : RespellsPlainly respell) : Respells respell := by
  intro spelling
  rcases plainly spelling with same | ⟨name, named, encoded, _⟩
  · exact .inl same
  · exact .inr ⟨name, named, encoded⟩

theorem endsEscaped_of_bland {text : List Char} (bland : Bland text) :
    endsEscaped text = false := by
  have runs : (Standing.bare [] 0).runWithin text = some (.bare [] 0) := runWithin_bland bland
  exact endsEscaped_of_runWithin runs

theorem hasPlainBlanks_codes {digits : List Char} {character : Char}
    (codes : Identifier.Codes digits character) : hasPlainBlanks ('\\' :: digits) := by
  refine hasPlainBlanksFrom_of_visible (fun other member => ?_) false
  rcases List.mem_cons.mp member with rfl | member
  · decide
  · exact Identifier.not_isBlank_of_isHexDigit (codes.hex other member)

theorem hasPlainBlanks_spelling {character : Char} {spelling : List Char}
    (spells : Identifier.CharacterSpelling character spelling)
    (control : isBlank character → character.toNat < 32) : hasPlainBlanks spelling := by
  cases spells with
  | plain member =>
    have visible : ¬ isBlank character := fun blank =>
      absurd (control blank) (Nat.not_lt.mpr (Identifier.not_isControl_of_isCharacter member))
    exact hasPlainBlanksFrom_of_visible (by simpa using visible) false
  | escaped _ noControl =>
    have visible : ¬ isBlank character := fun blank =>
      absurd (control blank) (Nat.not_lt.mpr noControl)
    refine hasPlainBlanksFrom_of_visible (fun other member => ?_) false
    rcases List.mem_cons.mp member with rfl | member
    · decide
    · rwa [List.mem_singleton.mp member]
  | coded codes =>
    exact (hasPlainBlanks_append (endsEscaped_of_bland codes.bland)).mpr
      ⟨hasPlainBlanks_codes codes, by decide⟩

theorem hasPlainBlanks_spelled {name text : List Char} (spells : Identifier.Spells name text)
    (control : ∀ character ∈ name, isBlank character → character.toNat < 32) :
    hasPlainBlanks text := by
  induction spells with
  | nil => rfl
  | cons first _ induction =>
    obtain ⟨controlFirst, control⟩ := List.forall_mem_cons.mp control
    exact (hasPlainBlanks_append (endsEscaped_of_bland first.bland)).mpr
      ⟨hasPlainBlanks_spelling first controlFirst, induction control⟩
  | unended codes => exact hasPlainBlanks_codes codes

theorem hasPlainBlanks_encode {name : List Char}
    (control : ∀ character ∈ name, isBlank character → character.toNat < 32) :
    hasPlainBlanks (Identifier.encode name) := by
  refine hasPlainBlanks_spelled (Identifier.spells_encode name) fun character member blank => ?_
  obtain ⟨other, isOther, same⟩ := List.mem_map.mp member
  split at same
  · rw [← same] at blank
    exact absurd blank (by decide)
  · rw [← same] at blank ⊢
    exact control other isOther blank

/-! ## Printed selectors -/

/-- What is printed of a text with plain white space has plain white space, and trimming keeps the
ends of the selectors in arguments. -/
def PrintsPlainly (respell : List Char → List Char) (text : List Char) (pieces : List Piece) :
    Prop :=
  ∀ (closers : List Char) (depth : Nat) (final : Standing),
    (Standing.bare closers depth).runWithin text = some final → final.IsClosed →
      hasPlainBlanks text →
        hasPlainBlanks (printPieces respell pieces) ∧ KeepsArguments respell pieces

namespace PrintsPlainly

section

variable {respell : List Char → List Char} {rest span after : List Char} {pieces : List Piece}
  {character : Char}

theorem nil (respell : List Char → List Char) : PrintsPlainly respell [] [] :=
  fun _ _ _ _ _ _ => ⟨rfl, nofun⟩

theorem copied (behind : PrintsPlainly respell after pieces) (copies : Echo.Copied span after)
    (nothing : after = [] → pieces = []) :
    PrintsPlainly respell (span ++ after) (.verbatim span :: pieces) := by
  intro closers depth final runs closed plain
  rcases copies closers depth final runs closed with
    ⟨rfl, _⟩ | ⟨closersBehind, depthBehind, passes, _⟩
  · rw [nothing rfl]
    exact ⟨plain, nofun⟩
  · have unescaped : endsEscaped span = false := endsEscaped_of_runWithin passes
    obtain ⟨plainSpan, plainAfter⟩ := (hasPlainBlanks_append unescaped).mp plain
    rw [Standing.runWithin_append, passes, Option.bind_some] at runs
    obtain ⟨printed, arguments⟩ := behind closersBehind depthBehind final runs closed plainAfter
    exact ⟨(hasPlainBlanks_append unescaped).mpr ⟨plainSpan, printed⟩, arguments⟩

theorem hasPlainBlanks_respelled (plainly : RespellsPlainly respell)
    (plain : hasPlainBlanks (spanName rest).1) :
    hasPlainBlanks (respell (spanName rest).1) := by
  rcases plainly (spanName rest).1 with same | ⟨name, _, encoded, control⟩
  · rwa [same]
  · rw [encoded]
    exact hasPlainBlanks_encode control

theorem endsEscaped_respelled (plainly : RespellsPlainly respell)
    (unescaped : endsEscaped (spanName rest).1 = false) :
    endsEscaped (respell (spanName rest).1) = false := by
  rcases plainly (spanName rest).1 with same | ⟨name, _, encoded, _⟩
  · rwa [same]
  · rw [encoded]
    exact endsEscaped_of_bland (Identifier.spells_encode name).bland

theorem name {sigil : Sigil}
    (starts : (character = '.' || character = '#') && (rest.head?.map startsName).getD false)
    (plainly : RespellsPlainly respell) (behind : PrintsPlainly respell (spanName rest).2 pieces)
    (nothing : (spanName rest).2 = [] → pieces = []) :
    PrintsPlainly respell (character :: rest) (.name sigil (spanName rest).1 :: pieces) := by
  intro closers depth final runs closed plain
  have visible : ¬ isBlank character ∧ character ≠ '\\' := by
    have mark : character = '.' ∨ character = '#' := by
      simpa using (Bool.and_eq_true_iff.mp starts).1
    rcases mark with rfl | rfl <;> decide
  have visibleSigil : ¬ isBlank sigil.character ∧ sigil.character ≠ '\\' := by
    cases sigil <;> decide
  rw [hasPlainBlanks_cons visible.1 visible.2, ← spanName_append rest] at plain
  rw [Standing.runWithin_cons, Standing.stepWithin_neutral (not_special_of_starts starts),
    Option.bind_some, ← spanName_append rest, Standing.runWithin_append] at runs
  rw [printPieces, Piece.print, List.cons_append, hasPlainBlanks_cons visibleSigil.1 visibleSigil.2]
  obtain ⟨escaped, runsName, ends⟩ := runWithin_spanName rest closers depth
  rw [runsName, Option.bind_some] at runs
  cases escaped with
  | false =>
    have unescaped : endsEscaped (spanName rest).1 = false := endsEscaped_of_runWithin runsName
    obtain ⟨plainName, plainBehind⟩ := (hasPlainBlanks_append unescaped).mp plain
    obtain ⟨printed, arguments⟩ := behind closers depth final runs closed plainBehind
    rw [hasPlainBlanks_append (endsEscaped_respelled plainly unescaped)]
    exact ⟨⟨hasPlainBlanks_respelled plainly plainName, printed⟩, arguments⟩
  | true =>
    rw [ends rfl, List.append_nil] at plain
    rw [nothing (ends rfl), printPieces, List.append_nil]
    exact ⟨hasPlainBlanks_respelled plainly plain, nofun⟩

/-! ## Arguments -/

theorem argument {item : List Char} {depth : Nat} {last : Standing}
    (plainly : PrintsPlainly respell (trimCharacters item) pieces)
    (echo : KeepsArguments respell pieces → Echo respell (trimCharacters item) pieces)
    (plain : hasPlainBlanks item) (runs : (Standing.bare [] depth).runWithin item = some last)
    (closed : last.IsClosed) (unescaped : last.shield.escaped = false) :
    hasPlainBlanks (printPieces respell pieces) ∧ endsEscaped (printPieces respell pieces) = false ∧
      KeepsArguments respell pieces := by
  obtain ⟨runsTrimmed, _⟩ := read_trimCharacters runs closed (keepsEnd_of_hasPlainBlanks plain)
  obtain ⟨printed, arguments⟩ :=
    plainly [] depth last runsTrimmed closed (hasPlainBlanks_trimCharacters plain)
  obtain ⟨⟨relaxed, runsPrinted, relaxes⟩, _⟩ :=
    (echo arguments).echoes [] depth last runsTrimmed closed
  obtain rfl := relaxes.eq_of_unescaped unescaped
  exact ⟨printed, (endsEscaped_of_runWithin runsPrinted).trans unescaped, arguments⟩

theorem functional {piecesOf : List Char → List Piece}
    (group : (spanName rest).2.head? = some '(')
    (plainly : ∀ item ∈ Piece.argumentItems (spanArguments (spanName rest).2).1,
      PrintsPlainly respell (trimCharacters item) (piecesOf item))
    (echoes : ∀ item ∈ Piece.argumentItems (spanArguments (spanName rest).2).1,
      KeepsArguments respell (piecesOf item) →
        Echo respell (trimCharacters item) (piecesOf item))
    (behind : PrintsPlainly respell (spanArguments (spanName rest).2).2 pieces) :
    PrintsPlainly respell (':' :: rest) (.functional (spanName rest).1
      ((Piece.argumentItems (spanArguments (spanName rest).2).1).map piecesOf) :: pieces) := by
  intro closers depth final runs closed plain
  obtain ⟨runsName, inside, after, inner, closersBehind, isGroup, runsInside, awaits, runsAfter⟩ :=
    Echo.exists_inside group runs closed
  rw [hasPlainBlanks_cons (by decide) (by decide), ← spanName_append rest, isGroup,
    hasPlainBlanks_append (endsEscaped_of_runWithin runsName), List.cons_append,
    hasPlainBlanks_cons (by decide) (by decide),
    hasPlainBlanks_append (endsEscaped_of_run runsInside),
    hasPlainBlanks_cons (by decide) (by decide)] at plain
  obtain ⟨plainName, plainInside, plainAfter⟩ := plain
  have spans := Standing.spanArguments_group runsInside after
  rw [isGroup, spans] at plainly echoes behind ⊢
  rw [argumentItems_group] at plainly echoes ⊢
  obtain ⟨printed, arguments⟩ := behind closersBehind depth final runsAfter closed plainAfter
  have cuts := Standing.items_cutCommas (Standing.covered_bare [] 0) runsInside
  have closedInside : (Standing.bare inner 0).IsClosed := ⟨rfl, .inl rfl⟩
  have each : ∀ item ∈ commaItems inside, hasPlainBlanks (printPieces respell (piecesOf item)) ∧
      endsEscaped (printPieces respell (piecesOf item)) = false ∧
        KeepsArguments respell (piecesOf item) := by
    intro item member
    obtain ⟨depthItem, last, runsItem, closedItem, unescaped⟩ :=
      Standing.exists_run_of_mem cuts ⟨0, rfl⟩ closedInside member
    exact (plainly item member).argument (echoes item member)
      (hasPlainBlanks_of_mem cuts ⟨0, rfl⟩ plainInside member) runsItem closedItem
      (Bool.eq_false_iff.mpr fun escaped => absurd (unescaped escaped) Bool.false_ne_true)
  refine ⟨?_, fun other member => ?_⟩
  · have eachPrinted : ∀ other ∈ (commaItems inside).map fun item =>
        printPieces respell (piecesOf item), hasPlainBlanks other ∧ endsEscaped other = false := by
      intro other member
      obtain ⟨item, isItem, rfl⟩ := List.mem_map.mp member
      exact ⟨(each item isItem).1, (each item isItem).2.1⟩
    obtain ⟨plainItems, unescaped⟩ := hasPlainBlanks_intercalate eachPrinted
    rw [Echo.printPieces_functional, hasPlainBlanks_cons (by decide) (by decide),
      hasPlainBlanks_append (endsEscaped_of_runWithin runsName), List.cons_append,
      hasPlainBlanks_cons (by decide) (by decide), hasPlainBlanks_append unescaped,
      hasPlainBlanks_cons (by decide) (by decide)]
    exact ⟨plainName, plainItems, printed⟩
  · rcases List.mem_append.mp member with member | member
    · have inItem : other ∈ listPrinted respell ((commaItems inside).map piecesOf) := member
      rw [listPrinted_eq_flatMap, List.flatMap_map] at inItem
      obtain ⟨item, isItem, member⟩ := List.mem_flatMap.mp inItem
      obtain ⟨plainItem, unescaped, argumentsItem⟩ := each item isItem
      rcases List.mem_cons.mp member with rfl | member
      · exact ⟨keepsEnd_of_hasPlainBlanks plainItem, unescaped⟩
      · exact argumentsItem other member
    · exact arguments other member

end

end PrintsPlainly

/-- By the cases of cutting into pieces. -/
theorem printsPlainly_read {respell : List Char → List Char} {text : List Char}
    (plainly : RespellsPlainly respell) (unscoped : .scope ∉ selectorWords (Piece.read text)) :
    PrintsPlainly respell text (Piece.read text) := by
  have nothing : ∀ {after : List Char}, after = [] → Piece.read after = [] := by
    rintro after rfl
    rw [Piece.read]
  fun_induction Piece.read text with
  | case1 => exact .nil respell
  | case2 rest induction =>
    have prints := (induction (unscoped_behind unscoped)).copied (Echo.copied_backslash rest)
      nothing
    rwa [List.cons_append, List.take_append_drop] at prints
  | case3 character rest _ opens span induction =>
    have prints := (induction (unscoped_behind unscoped)).copied (Echo.copied_shield opens) nothing
    rwa [List.cons_append, spanShield_append] at prints
  | case4 character rest _ _ starts span induction =>
    exact .name starts plainly (induction (unscoped_behind unscoped)) nothing
  | case5 character rest _ _ _ element name arguments induction =>
    obtain ⟨rfl, isColon⟩ : character = ':' ∧ rest.head? = some ':' := by simpa using element
    obtain ⟨rest, rfl⟩ := List.head?_eq_some_iff.mp isColon
    have prints := (induction (unscoped_behind unscoped)).copied Echo.copied_element nothing
    rwa [List.append_assoc, spanArguments_append, List.cons_append, List.cons_append,
      spanName_append] at prints
  | case6 => exact absurd List.mem_cons_self unscoped
  | case7 => exact absurd List.mem_cons_self unscoped
  | case8 rest name arguments items noScope functional _ _ _ noElement inside induction =>
    obtain ⟨group, _⟩ := Bool.and_eq_true_iff.mp functional
    have sameItems : (items.attach.map fun item => Piece.read (trimCharacters item.val)) =
        items.map fun item => Piece.read (trimCharacters item) := by simp
    rw [sameItems] at unscoped ⊢
    have unscopedItem := unscoped_item unscoped
    exact .functional ((isEmpty_spanArguments _).mp (by simpa using group))
      (fun item member => inside ⟨item, member⟩ (unscopedItem item member))
      (fun item member keeps => echo_read plainly.respells (unscopedItem item member) keeps)
      (induction (unscoped_behind unscoped))
  | case9 rest name arguments noScope verbatim _ _ _ noElement induction =>
    have prints := (induction (unscoped_behind unscoped)).copied
      (Echo.copied_pseudo (by simpa using noElement) (opening?_of_verbatim noScope verbatim)
        noScope) nothing
    rwa [List.append_assoc, spanArguments_append, List.cons_append, spanName_append] at prints
  | case10 character rest noBackslash noShield noName _ noColon induction =>
    exact (induction (unscoped_behind unscoped)).copied
      (Echo.copied_skip noBackslash noShield noName noColon) nothing

end ScopedStyles.Selector
