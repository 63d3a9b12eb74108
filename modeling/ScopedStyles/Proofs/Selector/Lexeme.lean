import ScopedStyles.Proofs.Selector.Balance

/-!
What decides whether a name is local, said of the whole text at once. A selector list is a row of
lexemes: the classes and ids in scanned position, the switches, the parentheses that open and close
arguments which are selectors, and the commas between selectors. A name takes its mark from the
layers of arguments that are open around it.
-/

namespace ScopedStyles

open Text

namespace Selector

/-! ## Lexemes -/

inductive Lexeme where
  /-- A comma between selectors. -/
  | comma
  /-- The beginning of arguments that are selectors, of `:global` or `:local` when `wraps` says
  which, and of another pseudo-class otherwise. -/
  | opens (wraps : Option Bool)
  /-- The end of such arguments. -/
  | closes
  /-- A class or an id, its name as spelled but for white space at the ends. -/
  | name (sigil : Sigil) (spelling : List Char)
  /-- A bare `:global` or `:local`. -/
  | switch (isGlobal : Bool)
deriving DecidableEq, Repr

inductive Paren where
  /-- Behind a pseudo-class whose arguments are selectors. -/
  | scanned
  /-- Behind anything else. -/
  | plain
deriving DecidableEq, Repr

/-- The kind of a pseudo-class with arguments: which wrapper it is, or another pseudo-class that
takes selectors. Nothing is the answer for one whose arguments are not scanned. -/
def Lexeme.opening? (name : List Char) : Option Lexeme :=
  match Piece.scope? name with
  | some isGlobal => some (.opens (some isGlobal))
  | none => if Piece.takesSelectors name then some (.opens none) else none

/-- The lexemes of a text, read with some parentheses open, the innermost first. -/
def lex (parens : List Paren) : List Char → List Lexeme
  | [] => []
  | character :: rest =>
    if character = '\\' then lex parens (rest.drop 1)
    else if (Shield.opened character).isSome then
      lex parens (spanShield ⟨Shield.opened character, false⟩ rest).2
    else if (character = '.' || character = '#') && (rest.head?.map startsName).getD false then
      let span := spanName rest
      .name (if character = '.' then .dot else .hash) (trimCharacters span.1) :: lex parens span.2
    else if character = ':' && rest.head? = some ':' then
      lex parens (spanArguments (spanName (rest.drop 1)).2).2
    else if character = ':' then
      let name := spanName rest
      if name.2.head? = some '(' then
        match Lexeme.opening? name.1 with
        | some opening => opening :: lex (.scanned :: parens) (name.2.drop 1)
        | none => lex parens (spanArguments name.2).2
      else
        match Piece.scope? name.1 with
        | some isGlobal => .switch isGlobal :: lex parens name.2
        | none => lex parens name.2
    else if character = '(' then lex (.plain :: parens) rest
    else if character = ')' then
      if parens.head? = some .scanned then .closes :: lex (parens.drop 1) rest
      else lex (parens.drop 1) rest
    else if character = ',' && parens.head? ≠ some .plain then .comma :: lex parens rest
    else lex parens rest
termination_by text => text.length
decreasing_by
  · simp only [List.length_drop, List.length_cons]
    omega
  · exact Nat.lt_succ_of_le (length_le_of_append (spanShield_append _ rest)).2
  · exact Nat.lt_succ_of_le (length_le_of_append (spanName_append rest)).2
  · have shorter := Piece.length_rest_le (rest.drop 1)
    simp only [List.length_drop] at shorter
    exact Nat.lt_succ_of_le (Nat.le_trans shorter (Nat.sub_le _ _))
  · have shorter := (length_le_of_append (spanName_append rest)).2
    simp only [List.length_drop, List.length_cons]
    omega
  · exact Nat.lt_succ_of_le (Piece.length_rest_le rest)
  all_goals first
    | exact Nat.lt_succ_of_le (length_le_of_append (spanName_append rest)).2
    | exact Nat.lt_succ_self _

example : lex [] ":not(.a), :global .b".toList =
    [.opens none, .name .dot ['a'], .closes, .comma, .switch true, .name .dot ['b']] := by
  decide +kernel

/-! ## One lexeme

What is read at each kind of character, and that white space is passed over. -/

theorem spanArguments_of_head {text : List Char} (noGroup : text.head? ≠ some '(') :
    spanArguments text = ([], text) := by
  cases text with
  | nil => rfl
  | cons first rest =>
    have other : first ≠ '(' := fun equal => noGroup (congrArg some equal)
    simp [spanArguments, other]

theorem isEmpty_spanArguments (text : List Char) :
    (spanArguments text).1.isEmpty = false ↔ text.head? = some '(' := by
  by_cases group : text.head? = some '('
  · obtain ⟨rest, rfl⟩ := List.head?_eq_some_iff.mp group
    exact ⟨fun _ => rfl, fun _ => rfl⟩
  · simp [spanArguments_of_head group, group]

/-- A name with an escape is not that of a pseudo-class whose arguments are selectors. -/
theorem opening?_of_escaped {name : List Char} (escaped : '\\' ∈ name) :
    Lexeme.opening? name = none ∧ Piece.scope? name = none := by
  have noEscape : ∀ word ∈ "global" :: "local" :: Piece.selectorFunctions,
      '\\' ∉ word.toList := by decide
  have other : String.ofList (name.map Char.toLower) ∉
      "global" :: "local" :: Piece.selectorFunctions := by
    intro member
    refine noEscape _ member ?_
    rw [String.toList_ofList]
    exact List.mem_map.mpr ⟨'\\', escaped, rfl⟩
  simp only [List.mem_cons, not_or] at other
  simp [Lexeme.opening?, Piece.scope?, Piece.takesSelectors, other]

theorem opening?_of_takesSelectors {name : List Char} (noSwitch : Piece.scope? name = none)
    (takes : Piece.takesSelectors name) : Lexeme.opening? name = some (.opens none) := by
  simp [Lexeme.opening?, noSwitch, takes]

theorem opening?_of_verbatim {rest : List Char}
    (noSwitch : Piece.scope? (spanName rest).1 = none)
    (verbatim : ¬ (!(spanArguments (spanName rest).2).1.isEmpty &&
      Piece.takesSelectors (spanName rest).1) = true)
    (group : (spanName rest).2.head? = some '(') : Lexeme.opening? (spanName rest).1 = none := by
  have isGroup := (isEmpty_spanArguments _).mpr group
  simpa [Lexeme.opening?, noSwitch, isGroup] using verbatim

section

variable {parens : List Paren} {character : Char} {text : List Char}

theorem lex_backslash : lex parens ('\\' :: text) = lex parens (text.drop 1) := by
  rw [lex, if_pos rfl]

theorem lex_shield (opens : (Shield.opened character).isSome) :
    lex parens (character :: text) =
      lex parens (spanShield ⟨Shield.opened character, false⟩ text).2 := by
  have noBackslash : character ≠ '\\' := by
    rintro rfl
    cases opens
  rw [lex, if_neg noBackslash, if_pos opens]

theorem lex_name (starts : (character = '.' || character = '#') &&
      (text.head?.map startsName).getD false) :
    lex parens (character :: text) =
      .name (if character = '.' then .dot else .hash) (trimCharacters (spanName text).1) ::
        lex parens (spanName text).2 := by
  have isSigil : character = '.' ∨ character = '#' := by
    simpa using (Bool.and_eq_true_iff.mp starts).1
  have noBackslash : character ≠ '\\' := by rintro rfl; simp at isSigil
  have noShield : ¬ (Shield.opened character).isSome := by rcases isSigil with rfl | rfl <;> decide
  rw [lex, if_neg noBackslash, if_neg noShield, if_pos starts]

theorem lex_element :
    lex parens (':' :: ':' :: text) = lex parens (spanArguments (spanName text).2).2 := by
  rw [lex]
  simp [Shield.opened, isQuote]

theorem lex_scanned {rest : List Char} {opening : Lexeme} (noElement : text.head? ≠ some ':')
    (group : (spanName text).2 = '(' :: rest)
    (scanned : Lexeme.opening? (spanName text).1 = some opening) :
    lex parens (':' :: text) = opening :: lex (.scanned :: parens) rest := by
  rw [lex]
  simp [Shield.opened, isQuote, noElement, group, scanned]

theorem lex_switch {isGlobal : Bool} (noElement : text.head? ≠ some ':')
    (noGroup : (spanName text).2.head? ≠ some '(')
    (scope : Piece.scope? (spanName text).1 = some isGlobal) :
    lex parens (':' :: text) = .switch isGlobal :: lex parens (spanName text).2 := by
  rw [lex]
  simp [Shield.opened, isQuote, noElement, noGroup, scope]

theorem lex_pseudo (noElement : text.head? ≠ some ':')
    (unscanned : (spanName text).2.head? = some '(' → Lexeme.opening? (spanName text).1 = none)
    (noSwitch : Piece.scope? (spanName text).1 = none) :
    lex parens (':' :: text) = lex parens (spanArguments (spanName text).2).2 := by
  rw [lex]
  by_cases group : (spanName text).2.head? = some '('
  · simp [Shield.opened, isQuote, noElement, group, unscanned group]
  · simp [Shield.opened, isQuote, noElement, group, noSwitch, spanArguments_of_head group]

@[simp] theorem lex_opens : lex parens ('(' :: text) = lex (.plain :: parens) text := by
  rw [lex]
  simp [Shield.opened, isQuote]

@[simp] theorem lex_closes_plain : lex (.plain :: parens) (')' :: text) = lex parens text := by
  rw [lex]
  simp [Shield.opened, isQuote]

@[simp] theorem lex_closes_scanned :
    lex (.scanned :: parens) (')' :: text) = .closes :: lex parens text := by
  rw [lex]
  simp [Shield.opened, isQuote]

theorem lex_comma (scanned : parens.head? ≠ some .plain) :
    lex parens (',' :: text) = .comma :: lex parens text := by
  rw [lex]
  simp [Shield.opened, isQuote, scanned]

@[simp] theorem lex_comma_plain :
    lex (.plain :: parens) (',' :: text) = lex (.plain :: parens) text := by
  rw [lex]
  simp [Shield.opened, isQuote]

theorem lex_skip (neutral : character ∉ Nesting.special) (noColon : character ≠ ':')
    (noName : ¬ ((character = '.' || character = '#') && (text.head?.map startsName).getD false)) :
    lex parens (character :: text) = lex parens text := by
  simp only [Nesting.special, List.mem_cons, List.not_mem_nil, or_false, not_or] at neutral
  rw [lex]
  simp [Shield.opened, isQuote, neutral, noColon, noName]

theorem lex_blanks {blanks : List Char} (blank : ∀ character ∈ blanks, isBlank character) :
    lex parens (blanks ++ text) = lex parens text := by
  induction blanks with
  | nil => rfl
  | cons first blanks induction =>
    have isWhite := blank first List.mem_cons_self
    have noDot : first ≠ '.' := by rintro rfl; exact absurd isWhite (by decide)
    have noHash : first ≠ '#' := by rintro rfl; exact absurd isWhite (by decide)
    have noColon : first ≠ ':' := by rintro rfl; exact absurd isWhite (by decide)
    rw [List.cons_append,
      lex_skip (not_special_of_isBlank isWhite) noColon (by simp [noDot, noHash]),
      induction fun other member => blank other (List.mem_cons_of_mem _ member)]

end

/-! ## Layers -/

/-- Selectors around a place: the arguments of a wrapper or not, and the last switch before the
place in its own selector. -/
structure Layer where
  wraps : Option Bool
  switched : Option Bool
deriving DecidableEq, Repr

/-- The layers behind a lexeme, the innermost first. -/
def layersBehind : List Layer → Lexeme → List Layer
  | layers, .opens wraps => ⟨wraps, none⟩ :: layers
  | layers, .closes => layers.drop 1
  | layer :: outer, .comma => ⟨layer.wraps, none⟩ :: outer
  | layer :: outer, .switch isGlobal => ⟨layer.wraps, some isGlobal⟩ :: outer
  | layers, _ => layers

/-- Whether names are local: by the wrapper around them; else by the last switch, that of the
innermost selector that has one; else by the mode of the surroundings. -/
def isLocalIn (start : Mode) (layers : List Layer) : Bool :=
  match layers.findSome? Layer.wraps with
  | some isGlobal => !isGlobal
  | none =>
    match layers.findSome? Layer.switched with
    | some isGlobal => !isGlobal
    | none => start.isLocal

/-- Whether a wrapper or a switch may not stand here. -/
def isSealed (start : Mode) (layers : List Layer) : Bool :=
  start.isBlock || layers.any fun layer => layer.wraps.isSome

/-- Whether a lexeme is a switch or begins a wrapper. -/
def Lexeme.setsMode : Lexeme → Bool
  | .switch _ | .opens (some _) => true
  | _ => false

/-- A class or id, its name as spelled but for white space at the ends, and whether it is local. -/
structure Mark where
  sigil : Sigil
  spelling : List Char
  isLocal : Bool
deriving DecidableEq, Repr

/-- Whether a wrapper or a switch stands where it may not. -/
def isNested (start : Mode) (layers : List Layer) : List Lexeme → Bool
  | [] => false
  | lexeme :: rest =>
    (lexeme.setsMode && isSealed start layers) ||
      isNested start (layersBehind layers lexeme) rest

/-- The mark that every class and id should get, in order. -/
def marks (start : Mode) (layers : List Layer) : List Lexeme → List Mark
  | [] => []
  | .name sigil spelling :: rest =>
    ⟨sigil, spelling, isLocalIn start layers⟩ :: marks start layers rest
  | lexeme :: rest => marks start (layersBehind layers lexeme) rest

/-- The mark of a class or an id in an annotated selector. -/
def Segment.mark? : Segment → Option Mark
  | .text _ => none
  | .name sigil _ spelling isLocal => some ⟨sigil, trimCharacters spelling.toList, isLocal⟩

end Selector

/-- The marks of a list of annotated selectors, in order. -/
def annotatedMarks (selectors : List AnnotatedSelector) : List Selector.Mark :=
  selectors.flatMap fun selector => selector.segments.filterMap Selector.Segment.mark?

end ScopedStyles
