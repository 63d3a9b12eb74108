import ScopedStyles.Proofs.Identifier.Spelling
import ScopedStyles.Proofs.Sheet.Clean

/-!
Selectors that are one class. The spelling of a name holds no character that a reader of preludes,
lists or selectors would stop at, outside escapes; so each of them passes over it, and the selector
is read as the class with the name that was spelled.
-/

namespace ScopedStyles

open Text Identifier

/-! ## Bland texts -/

/-- Characters that mean nothing outside names. -/
def isBland (character : Char) : Bool :=
  isCharacter character || character == '.' || character == ' '

/-- Texts of such characters and of escapes. -/
inductive Bland : List Char → Prop
  | nil : Bland []
  | plain {character : Char} {rest : List Char} (bland : isBland character)
    (behind : Bland rest) : Bland (character :: rest)
  | escape {character : Char} {rest : List Char} (behind : Bland rest) :
    Bland ('\\' :: character :: rest)

/-- The characters that readers of preludes, lists and selectors stop at are none of them. -/
theorem not_bland_of_stops {character : Char} (bland : isBland character) :
    character ∉ ['\\', '"', '\'', '(', ')', '[', ']', '{', '}', ';', ',', '/', ':'] := by
  intro member
  simp only [List.mem_cons, List.not_mem_nil, or_false] at member
  rcases member with
    rfl | rfl | rfl | rfl | rfl | rfl | rfl | rfl | rfl | rfl | rfl | rfl | rfl <;>
    exact absurd bland (by decide)

namespace Bland

variable {text others : List Char}

theorem append (first : Bland text) (second : Bland others) : Bland (text ++ others) := by
  induction first with
  | nil => exact second
  | plain bland _ induction => exact .plain bland induction
  | escape _ induction => exact .escape induction

theorem of_all (all : ∀ character ∈ text, isBland character) : Bland text := by
  induction text with
  | nil => exact .nil
  | cons first rest induction =>
    exact .plain (all first List.mem_cons_self)
      (induction fun other member => all other (List.mem_cons_of_mem _ member))

theorem isClosed_braces (bland : Bland text) : isClosed braces 0 none false text := by
  induction bland with
  | nil => rfl
  | @plain character rest bland _ induction =>
    have noStop := not_bland_of_stops bland
    simp only [List.mem_cons, List.not_mem_nil, or_false, not_or] at noStop
    have noBrace : character ∉ braces := by simp [braces, noStop]
    simpa [isClosed, isQuote, noStop, noBrace] using induction
  | escape _ induction => simpa [isClosed] using induction

theorem cutCommas_cons {state : CutState} {character : Char} {rest : List Char}
    (noCut : ¬ (character = ',' && state.separates))
    (behind : cutCommas (state.next character) rest = [rest]) :
    cutCommas state (character :: rest) = [character :: rest] := by
  rw [cutCommas, if_neg noCut, behind]

theorem commaItems_eq (bland : Bland text) : commaItems text = [text] := by
  unfold commaItems
  induction bland with
  | nil => rfl
  | @plain character rest bland _ induction =>
    have noStop := not_bland_of_stops bland
    simp only [List.mem_cons, List.not_mem_nil, or_false, not_or] at noStop
    have same : CutState.initial.next character = .initial := by
      simp [CutState.next, CutState.initial, isQuote, noStop]
    exact cutCommas_cons (by simp [noStop]) (by rwa [same])
  | @escape character rest _ induction =>
    refine cutCommas_cons (by decide) (cutCommas_cons ?_ induction)
    simp [CutState.separates, CutState.next, CutState.initial]

end Bland

namespace Identifier

theorem isBland_of_isHexDigit {digit : Char} (hex : isHexDigit digit) : isBland digit := by
  simp [isBland, isCharacter_of_isHexDigit hex]

theorem Codes.bland {digits : List Char} {character : Char} (codes : Codes digits character) :
    Bland ('\\' :: digits) := by
  obtain ⟨first, rest, rfl⟩ := List.exists_cons_of_ne_nil codes.nonempty
  exact .escape (.of_all fun digit member =>
    isBland_of_isHexDigit (codes.hex digit (List.mem_cons_of_mem first member)))

theorem CharacterSpelling.bland {character : Char} {spelling : List Char}
    (spells : CharacterSpelling character spelling) : Bland spelling := by
  cases spells with
  | plain member => exact .plain (by simp [isBland, member]) .nil
  | escaped => exact .escape .nil
  | coded codes => exact codes.bland.append (.plain (by decide) .nil)

theorem Spells.bland {name text : List Char} (spells : Spells name text) : Bland text := by
  induction spells with
  | nil => exact .nil
  | cons first _ induction => exact first.bland.append induction
  | unended codes => exact codes.bland

end Identifier

/-! ## The selector -/

/-- A class selector as it is written for a name. -/
def classSelector (name : String) : String :=
  "." ++ escapeIdentifier name

theorem toList_classSelector (name : String) :
    (classSelector name).toList = '.' :: encode name.toList := by
  simp [classSelector, escapeIdentifier]

/-- A text is read as one class with this name. -/
structure IsClass (name selector : String) : Prop where
  trimmed : trim selector = selector
  spelled : ∃ first rest, selector.toList = '.' :: first :: rest ∧ Selector.startsName first ∧
    Spells name.toList (first :: rest)

theorem exists_trimmed {name : String} (firm : endsFirmly name.toList) :
    ∃ spelling, Spells (writable name.toList) spelling ∧
      (trim (classSelector name)).toList = '.' :: spelling ∧
      trim (trim (classSelector name)) = trim (classSelector name) ∧
      (encode name.toList = spelling ∨ encode name.toList = spelling ++ [' ']) := by
  obtain ⟨spelling, spells, ends, whole⟩ :=
    (spells_encode name.toList).exists_firm (endsFirmly_writable firm)
  have front : ¬ ('.' :: spelling).head?.any isBlank := by
    simpa using (by decide : ¬ isBlank '.')
  have back : ¬ ('.' :: spelling).getLast?.any isBlank := by
    cases spelling with
    | nil => decide
    | cons first rest => rwa [List.getLast?_cons_cons]
  have trimmed := trimCharacters_eq_self front back
  have spelled : (trim (classSelector name)).toList = '.' :: spelling := by
    rw [toList_trim, toList_classSelector]
    rcases whole with whole | whole
    · rw [whole, trimmed]
    · rw [whole, ← List.cons_append, trimCharacters_append_blanks (by simp; decide),
        trimmed]
  refine ⟨spelling, spells, spelled, ?_, whole⟩
  rw [← String.toList_inj, toList_trim, spelled, trimmed]

/-- A class selector is trimmed by the space behind a code at most. -/
theorem trim_classSelector {name : String} (firm : endsFirmly name.toList) :
    classSelector name = trim (classSelector name) ∨
      classSelector name = trim (classSelector name) ++ " " := by
  obtain ⟨spelling, _, trimmed, _, whole⟩ := exists_trimmed firm
  refine whole.imp (fun whole => ?_) fun whole => ?_
  · rw [← String.toList_inj, toList_classSelector, trimmed, whole]
  · rw [← String.toList_inj, toList_classSelector, String.toList_append, trimmed, whole]
    rfl

theorem isClass_trim {name : String} (named : name ≠ "") (noNul : '\x00' ∉ name.toList)
    (firm : endsFirmly name.toList) : IsClass name (trim (classSelector name)) := by
  obtain ⟨spelling, spells, spelled, trimmed, whole⟩ := exists_trimmed firm
  rw [writable_eq_self noNul] at spells
  have named : name.toList ≠ [] := by simpa using named
  obtain ⟨first, rest, rfl⟩ := List.exists_cons_of_ne_nil (spells.ne_nil named)
  obtain ⟨other, behind, encoded, starts⟩ := exists_startsName_encode named
  have same : other = first := by
    rcases whole with whole | whole <;> rw [whole] at encoded <;>
      exact (List.cons.inj encoded).1.symm
  exact ⟨trimmed, first, rest, spelled, same ▸ starts, spells⟩

theorem Selector.Piece.read_class {first : Char} {rest : List Char}
    (starts : startsName first) (whole : spanName (first :: rest) = (first :: rest, [])) :
    read ('.' :: first :: rest) = [.name .dot (first :: rest)] := by
  rw [read, if_neg (by decide), if_neg (by decide), if_pos (by simp [starts]), whole]
  simp [read]

theorem annotateSelectors_of_isClass {name selector : String} (isClass : IsClass name selector)
    (mode : Mode) :
    ∃ spelling, annotateSelectors selector mode =
      .ok [⟨[.name .dot name spelling mode.isLocal]⟩] := by
  obtain ⟨first, rest, spelled, starts, spells⟩ := isClass.spelled
  have bland : Bland ('.' :: first :: rest) := .plain (by decide) spells.bland
  refine ⟨String.ofList (first :: rest), ?_⟩
  rw [annotateSelectors, spelled, bland.commaItems_eq, List.mapM_cons, List.mapM_nil,
    Selector.Piece.read_class starts spells.spanName_eq]
  simp [Selector.annotatePieces, Selector.annotatePiece, Selector.textSegments,
    Selector.nameSegment, spells.decode_eq]

end ScopedStyles
