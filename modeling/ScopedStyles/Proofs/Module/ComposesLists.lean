import ScopedStyles.Module.Composition
import ScopedStyles.Proofs.Text.FromClause

/-!
The lists in `composes` declarations. A list is written by its grammar: names, by themselves or in
`global( )`, with white space and commas between them, and a `from` clause behind them. It is cut at
white space and commas before the items are read, so white space inside the parentheses breaks an
item into pieces.
-/

namespace ScopedStyles.Composition

open Text

variable {item name word front back tail : List Char}

/-! ## Cutting at separators -/

theorem isSeparator_of_isBlank {character : Char} (blank : isBlank character) :
    isSeparator character := by
  simp [isSeparator, blank]

theorem not_isBlank_of_not_isSeparator {character : Char} (inside : ¬ isSeparator character) :
    ¬ isBlank character :=
  fun blank => inside (isSeparator_of_isBlank blank)

theorem cutNames_append_separator {separator : Char} (separates : isSeparator separator)
    (current front rest : List Char) :
    cutNames current (front ++ separator :: rest) = cutNames current front ++ cutNames [] rest := by
  induction front generalizing current with
  | nil => simp [cutNames, separates]
  | cons character front induction =>
    rw [List.cons_append, cutNames, cutNames]
    split
    · rw [induction, List.append_assoc]
    · exact induction (character :: current)

theorem cutNames_append_separators {separators : List Char} (proper : separators ≠ [])
    (separate : ∀ character ∈ separators, isSeparator character) (front rest : List Char) :
    cutNames [] (front ++ (separators ++ rest)) = cutNames [] front ++ cutNames [] rest := by
  induction separators generalizing front with
  | nil => exact absurd rfl proper
  | cons separator more induction =>
    rw [List.forall_mem_cons] at separate
    rw [List.cons_append, cutNames_append_separator separate.1]
    by_cases last : more = []
    · rw [last, List.nil_append]
    · exact congrArg (cutNames [] front ++ ·) (induction last separate.2 [])

theorem cutNames_word (inside : ∀ character ∈ word, ¬ isSeparator character)
    (current : List Char) : cutNames current word = cutNames (word.reverse ++ current) [] := by
  induction word generalizing current with
  | nil => rfl
  | cons character word induction =>
    rw [List.forall_mem_cons] at inside
    rw [List.reverse_cons, List.append_assoc, List.singleton_append, ← induction inside.2]
    exact if_neg inside.1

theorem cutNames_eq_singleton (proper : word ≠ [])
    (inside : ∀ character ∈ word, ¬ isSeparator character) : cutNames [] word = [word] := by
  rw [cutNames_word inside, cutNames]
  simp [proper]

/-- A word between white space, and one at the end, is among the names. -/
theorem mem_cutNames {gap : List Char} (isGap : IsGap gap) (proper : word ≠ [])
    (inside : ∀ character ∈ word, ¬ isSeparator character)
    (apart : ∀ character ∈ tail.head?, isBlank character) (front : List Char) :
    word ∈ cutNames [] (front ++ (gap ++ (word ++ tail))) := by
  have separate : ∀ character ∈ gap, isSeparator character := fun character member =>
    isSeparator_of_isBlank (isGap.2 character member)
  rw [cutNames_append_separators isGap.1 separate, List.mem_append]
  apply Or.inr
  cases tail with
  | nil => simp [cutNames_eq_singleton proper inside]
  | cons blank rest =>
    have separates := isSeparator_of_isBlank (apart blank rfl)
    simp [cutNames_append_separator separates, cutNames_eq_singleton proper inside]

/-! ## No clause among the names -/

/-- When `from` is none of the names, no `from` clause begins before the end of the list. -/
theorem fromClause?_eq_none {α : Type} {source? : List Char → Option α}
    (absent : ['f', 'r', 'o', 'm'] ∉ cutNames [] (front ++ back))
    (visible : EndsVisible (front ++ back)) (proper : back ≠ [])
    (apart : ∀ character ∈ tail.head?, isBlank character) :
    fromClause? source? (back ++ tail) = none := by
  have wordVisible : ∀ character ∈ ['f', 'r', 'o', 'm'], ¬ isSeparator character :=
    List.any_eq_false.mp (by decide +kernel)
  rw [fromClause?, Option.bind_eq_none_iff]
  intro behind found
  rcases (behindWord?_eq_some_iff (startsVisible_cons.mpr (by decide)) (List.cons_ne_nil _ _)).mp
    found with ⟨before, after, whole, gapBefore, gapAfter, -⟩
  rcases List.append_eq_append_iff.mp whole with ⟨more, beforeSplit, -⟩ | ⟨more, backSplit, rest⟩
  · -- The list would end inside the white space in front of the word.
    have isLast : (front ++ back).getLast? = some (back.getLast proper) := by
      rw [List.getLast?_append_of_ne_nil front proper, List.getLast?_eq_some_getLast]
    have blank : isBlank (back.getLast proper) := by
      apply gapBefore.2
      rw [beforeSplit]
      exact List.mem_append_left more (List.getLast_mem proper)
    exact absurd (by simp [isLast, blank]) visible
  · apply absurd _ absent
    rw [backSplit]
    rcases List.append_eq_append_iff.mp rest with ⟨rest, moreSplit, behindSplit⟩ |
      ⟨ending, wordSplit, tailSplit⟩
    · rw [moreSplit]
      apply mem_cutNames gapBefore (List.cons_ne_nil _ _) wordVisible
      intro character first
      apply gapAfter.2
      apply List.mem_of_mem_head?
      have sameHead := congrArg List.head? behindSplit
      rwa [List.head?_append_of_ne_nil after gapAfter.1, List.head?_append, first,
        Option.some_or] at sameHead
    · cases ending with
      | nil =>
        rw [List.append_nil] at wordSplit
        rw [← wordSplit, ← List.append_nil ['f', 'r', 'o', 'm']]
        exact mem_cutNames gapBefore (List.cons_ne_nil _ _) wordVisible (by simp) front
      | cons letter letters =>
        have member : letter ∈ ['f', 'r', 'o', 'm'] := by simp [wordSplit]
        have blank : isBlank letter := apart letter (by simp [tailSplit])
        exact absurd (isSeparator_of_isBlank blank) (wordVisible letter member)

/-! ## Names in `global( )` -/

/-- How an item that is passed through begins. -/
def opening : List Char :=
  ['g', 'l', 'o', 'b', 'a', 'l', '(']

theorem globalName?_eq_some_iff : globalName? item = some name ↔
    item = opening ++ (name ++ [')']) ∧ name ≠ [] ∧ ')' ∉ name := by
  have begins : "global(".toList = opening := by decide
  have dropped (inside : List Char) : (opening ++ inside).drop 7 = inside := rfl
  unfold globalName?
  rw [begins]
  constructor
  · intro found
    split at found
    · rename_i opens
      rcases List.isPrefixOf_iff_prefix.mp opens with ⟨inside, rfl⟩
      simp only [dropped, Option.ite_none_right_eq_some, Option.some.injEq, Bool.and_eq_true,
        Bool.not_eq_true', List.isEmpty_eq_false_iff, decide_eq_true_eq] at found
      rcases found with ⟨⟨proper, closes⟩, rfl⟩
      refine ⟨?_, proper, fun member => ?_⟩
      · rw [← closes, List.prefix_iff_eq_append.mp (List.takeWhile_prefix _)]
      · simpa using List.all_eq_true.mp List.all_takeWhile ')' member
    · cases found
  · rintro ⟨rfl, proper, plain⟩
    have inside : ∀ character ∈ name, decide (character ≠ ')') := by
      intro character member
      rw [decide_eq_true_eq]
      rintro rfl
      exact plain member
    have opens : opening.isPrefixOf (opening ++ (name ++ [')'])) :=
      List.isPrefixOf_iff_prefix.mpr (List.prefix_append _ _)
    have taken : (name ++ [')']).takeWhile (fun character => decide (character ≠ ')')) = name := by
      rw [List.takeWhile_append_of_pos inside]
      simp
    simp only [if_pos opens, dropped, taken]
    simp [proper]

theorem globalName?_eq_none (plain : '(' ∉ item ∨ ')' ∉ item) : globalName? item = none := by
  rw [Option.eq_none_iff_forall_ne_some]
  intro name found
  rw [(globalName?_eq_some_iff.mp found).1] at plain
  simp [opening] at plain

theorem reference_of_global (source : ReferenceSource) (proper : name ≠ []) (plain : ')' ∉ name) :
    reference source (opening ++ (name ++ [')'])) =
      ⟨String.ofList name, .passThrough⟩ := by
  rw [reference, globalName?_eq_some_iff.mpr ⟨rfl, proper, plain⟩]

theorem reference_of_plain (source : ReferenceSource) (plain : '(' ∉ item ∨ ')' ∉ item) :
    reference source item = ⟨String.ofList item, source⟩ := by
  rw [reference, globalName?_eq_none plain]

/-! ## The grammar of lists -/

/-- A name holds no separators and no parentheses. -/
structure Name where
  letters : List Char
  proper : letters ≠ []
  plain : ∀ letter ∈ letters, ¬ isSeparator letter ∧ letter ≠ '(' ∧ letter ≠ ')'

/-- An item of a list: a name that is not `from`, a name in `global( )`, or one that has white space
around it there. -/
inductive Item where
  | own (name : Name) (noClause : name.letters ≠ ['f', 'r', 'o', 'm'])
  | global (name : Name)
  | spaced (before : List Char) (name : Name) (behind : List Char)
      (blank : (∀ character ∈ before, isBlank character) ∧ ∀ character ∈ behind, isBlank character)
      (proper : before ≠ [] ∨ behind ≠ []) (noClause : name.letters ≠ ['f', 'r', 'o', 'm'])

namespace Item

def text : Item → List Char
  | own name _ => name.letters
  | global name => opening ++ (name.letters ++ [')'])
  | spaced before name behind _ _ _ =>
    opening ++ (before ++ (name.letters ++ (behind ++ [')'])))

/-- What an item means: a name in `global( )` is passed through, any other one is looked up in
`source`. -/
def meant (source : ReferenceSource) : Item → Reference
  | own name _ => ⟨String.ofList name.letters, source⟩
  | global name | spaced _ name _ _ _ _ => ⟨String.ofList name.letters, .passThrough⟩

def pieces : Item → List (List Char)
  | spaced before name behind _ _ _ =>
    if before = [] then [opening ++ name.letters, [')']]
    else if behind = [] then [opening, name.letters ++ [')']]
    else [opening, name.letters, [')']]
  | item => [item.text]

/-- What an item is read as: when it has white space inside, each of its pieces is a name. -/
def references (source : ReferenceSource) : Item → List Reference
  | spaced before name behind blank proper noClause =>
    (spaced before name behind blank proper noClause).pieces.map fun piece =>
      ⟨String.ofList piece, source⟩
  | item => [item.meant source]

/-- Whether no white space is inside an item. -/
def IsTight : Item → Prop
  | spaced .. => False
  | _ => True

end Item

namespace Name

variable (name : Name)

theorem noSeparator : ∀ letter ∈ name.letters, ¬ isSeparator letter :=
  fun letter member => (name.plain letter member).1

theorem noOpening : '(' ∉ name.letters :=
  fun member => (name.plain '(' member).2.1 rfl

theorem noClosing : ')' ∉ name.letters :=
  fun member => (name.plain ')' member).2.2 rfl

theorem visible : ∀ letter ∈ name.letters, ¬ isBlank letter :=
  fun letter member => not_isBlank_of_not_isSeparator (name.noSeparator letter member)

theorem cutNames_letters : cutNames [] name.letters = [name.letters] :=
  cutNames_eq_singleton name.proper name.noSeparator

theorem cutNames_opened :
    cutNames [] (opening ++ name.letters) = [opening ++ name.letters] := by
  apply cutNames_eq_singleton (by simp [opening])
  rw [List.forall_mem_append]
  exact ⟨List.any_eq_false.mp (by decide +kernel), name.noSeparator⟩

theorem cutNames_closed :
    cutNames [] (name.letters ++ [')']) = [name.letters ++ [')']] := by
  apply cutNames_eq_singleton (by simp)
  rw [List.forall_mem_append]
  exact ⟨name.noSeparator, List.any_eq_false.mp (by decide +kernel)⟩

end Name

namespace Item

variable (item : Item)

theorem cutNames_text : cutNames [] item.text = item.pieces := by
  have cutOpening : cutNames [] opening = [opening] := by decide +kernel
  have closing : cutNames [] [')'] = [[')']] := by decide +kernel
  have separate {blanks : List Char} (blank : ∀ character ∈ blanks, isBlank character) :
      ∀ character ∈ blanks, isSeparator character :=
    fun character member => isSeparator_of_isBlank (blank character member)
  cases item with
  | own name noClause => exact name.cutNames_letters
  | global name =>
    apply cutNames_eq_singleton (List.cons_ne_nil _ _)
    change ∀ character ∈ opening ++ (name.letters ++ [')']), ¬ isSeparator character
    rw [List.forall_mem_append, List.forall_mem_append]
    exact ⟨List.any_eq_false.mp (by decide +kernel), name.noSeparator,
      List.any_eq_false.mp (by decide +kernel)⟩
  | spaced before name behind blank proper noClause =>
    rw [text, pieces]
    by_cases tightBefore : before = []
    · have gap : behind ≠ [] := proper.resolve_left (fun proper => proper tightBefore)
      rw [if_pos tightBefore, tightBefore, List.nil_append, ← List.append_assoc,
        cutNames_append_separators gap (separate blank.2), name.cutNames_opened, closing]
      rfl
    · rw [if_neg tightBefore, cutNames_append_separators tightBefore (separate blank.1), cutOpening]
      by_cases tightBehind : behind = []
      · rw [if_pos tightBehind, tightBehind, List.nil_append, name.cutNames_closed]
        rfl
      · rw [if_neg tightBehind, cutNames_append_separators tightBehind (separate blank.2),
          name.cutNames_letters, closing]
        rfl

/-- The pieces of an item with white space inside are its name and the parts around it. -/
theorem of_mem_pieces_spaced {piece before behind : List Char} {name : Name} {blank proper noClause}
    (member : piece ∈ (spaced before name behind blank proper noClause).pieces) :
    piece = name.letters ∨ (∃ rest, piece = opening ++ rest ∧ ')' ∉ rest) ∨
      ∃ rest, piece = rest ++ [')'] ∧ '(' ∉ rest := by
  rw [pieces] at member
  split at member
  · rcases List.mem_pair.mp member with isFirst | isSecond
    · exact .inr (.inl ⟨name.letters, isFirst, name.noClosing⟩)
    · exact .inr (.inr ⟨[], isSecond, List.not_mem_nil⟩)
  · split at member
    · rcases List.mem_pair.mp member with isFirst | isSecond
      · exact .inr (.inl ⟨[], isFirst, List.not_mem_nil⟩)
      · exact .inr (.inr ⟨name.letters, isSecond, name.noOpening⟩)
    · rcases List.mem_cons.mp member with isFirst | others
      · exact .inr (.inl ⟨[], isFirst, List.not_mem_nil⟩)
      · rcases List.mem_pair.mp others with isSecond | isThird
        · exact .inl isSecond
        · exact .inr (.inr ⟨[], isThird, List.not_mem_nil⟩)

theorem from_notMem_pieces : ['f', 'r', 'o', 'm'] ∉ item.pieces := by
  cases item with
  | own name noClause => simpa [pieces, text] using noClause.symm
  | global name => simp [pieces, text, opening]
  | spaced before name behind blank proper noClause =>
    intro member
    rcases of_mem_pieces_spaced member with isName | ⟨rest, opens, -⟩ | ⟨rest, closes, -⟩
    · exact noClause isName.symm
    · simp [opening] at opens
    · have isLast := congrArg List.getLast? closes
      simp at isLast

theorem map_reference_pieces (source : ReferenceSource) :
    item.pieces.map (reference source) = item.references source := by
  cases item with
  | own name noClause =>
    exact congrArg ([·]) (reference_of_plain source (.inl name.noOpening))
  | global name =>
    exact congrArg ([·]) (reference_of_global source name.proper name.noClosing)
  | spaced before name behind blank proper noClause =>
    apply List.map_congr_left
    intro piece member
    apply reference_of_plain
    rcases of_mem_pieces_spaced member with rfl | ⟨rest, rfl, closed⟩ | ⟨rest, rfl, closed⟩
    · exact .inl name.noOpening
    · exact .inr (by simpa [opening] using closed)
    · exact .inl (by simpa using closed)

theorem text_ne_nil : item.text ≠ [] := by
  cases item with
  | own name noClause => exact name.proper
  | global name => simp [text]
  | spaced before name behind blank proper noClause => simp [text]

theorem startsVisible_text : StartsVisible item.text := by
  have visible : StartsVisible opening := startsVisible_cons.mpr (by decide)
  have begins : opening ≠ [] := List.cons_ne_nil _ _
  cases item with
  | own name noClause => exact startsVisible_of_visible name.visible
  | global name => exact visible.append begins _
  | spaced before name behind blank proper noClause => exact visible.append begins _

theorem endsVisible_text : EndsVisible item.text := by
  have closing : EndsVisible [')'] := endsVisible_of_visible (List.any_eq_false.mp (by decide))
  cases item with
  | own name noClause => exact endsVisible_of_visible name.visible
  | global name =>
    exact (closing.append (by simp) name.letters).append (by simp) _
  | spaced before name behind blank proper noClause =>
    apply EndsVisible.append _ (by simp)
    apply EndsVisible.append _ (by simp)
    apply EndsVisible.append _ (by simp)
    exact closing.append (by simp) behind

theorem references_of_isTight (source : ReferenceSource) (tight : item.IsTight) :
    item.references source = [item.meant source] := by
  cases item with
  | own name noClause => rfl
  | global name => rfl
  | spaced before name behind blank proper noClause => exact tight.elim

/-- Every item gives a reference, and one with white space inside gives more. -/
theorem isTight_of_length_references (source : ReferenceSource)
    (few : (item.references source).length ≤ 1) : item.IsTight := by
  cases item with
  | own name noClause => trivial
  | global name => trivial
  | spaced before name behind blank proper noClause =>
    rw [references, List.length_map, pieces] at few
    split at few
    · simp at few
    · split at few
      · simp at few
      · simp at few

theorem length_references_pos (source : ReferenceSource) :
    0 < (item.references source).length := by
  by_contra none
  have tight : item.IsTight := isTight_of_length_references item source (by omega)
  rw [references_of_isTight item source tight] at none
  simp at none

theorem length_le_flatMap_references (source : ReferenceSource) (items : List Item) :
    items.length ≤ (items.flatMap (references source)).length := by
  induction items with
  | nil => simp
  | cons item items induction =>
    have positive := item.length_references_pos source
    rw [List.flatMap_cons, List.length_append, List.length_cons]
    omega

/-- There is one reference for each item only when no item has white space inside. -/
theorem isTight_of_flatMap_references (source : ReferenceSource) {items : List Item}
    (few : (items.flatMap (references source)).length ≤ items.length) :
    ∀ item ∈ items, item.IsTight := by
  induction items with
  | nil => simp
  | cons item items induction =>
    have positive := item.length_references_pos source
    have others := length_le_flatMap_references source items
    rw [List.flatMap_cons, List.length_append, List.length_cons] at few
    rw [List.forall_mem_cons]
    exact ⟨item.isTight_of_length_references source (by omega), induction (by omega)⟩

end Item

/-- White space and commas between two items, and some of them. -/
structure Separation where
  characters : List Char
  proper : characters ≠ []
  separate : ∀ character ∈ characters, isSeparator character

/-- A `from` clause with a path in double quotes. -/
structure FileClause where
  before : List Char
  after : List Char
  path : List Char
  isGap : IsGap before ∧ IsGap after
  closed : '"' ∉ path

def FileClause.text (clause : FileClause) : List Char :=
  clause.before ++ (['f', 'r', 'o', 'm'] ++ (clause.after ++ '"' :: (clause.path ++ ['"'])))

/-- The items of a `composes` declaration and the clause behind them. -/
structure ItemList where
  first : Item
  others : List (Separation × Item)
  clause : Option FileClause

namespace ItemList

variable (list : ItemList)

def items : List Item :=
  list.first :: list.others.map Prod.snd

/-- The items as they stand in the declaration. -/
def names : List Char :=
  list.first.text ++ list.others.flatMap fun other => other.1.characters ++ other.2.text

def text : String :=
  String.ofList (list.names ++ list.clause.elim [] FileClause.text)

/-- Where the names that are not passed through are defined. -/
def source : ReferenceSource :=
  match list.clause with
  | none => .sameFile
  | some clause => .file (String.ofList clause.path)

theorem cutNames_others (front : List Char) (others : List (Separation × Item)) :
    cutNames [] (front ++ others.flatMap fun other => other.1.characters ++ other.2.text) =
      cutNames [] front ++ (others.map Prod.snd).flatMap Item.pieces := by
  induction others generalizing front with
  | nil => simp
  | cons other others induction =>
    rw [List.flatMap_cons, List.append_assoc,
      cutNames_append_separators other.1.proper other.1.separate, induction,
      other.2.cutNames_text, List.map_cons, List.flatMap_cons]

theorem cutNames_names : cutNames [] list.names = list.items.flatMap Item.pieces := by
  rw [names, cutNames_others, list.first.cutNames_text]
  rfl

theorem endsVisible_others {front : List Char} (visible : EndsVisible front) (proper : front ≠ [])
    (others : List (Separation × Item)) :
    EndsVisible (front ++ others.flatMap fun other => other.1.characters ++ other.2.text) := by
  induction others generalizing front with
  | nil => simpa using visible
  | cons other others induction =>
    rw [List.flatMap_cons, List.append_assoc]
    have rest := induction other.2.endsVisible_text other.2.text_ne_nil
    have more : other.2.text ++ others.flatMap (fun other => other.1.characters ++ other.2.text) ≠
        [] := List.append_ne_nil_of_left_ne_nil other.2.text_ne_nil _
    exact (rest.append more other.1.characters).append
      (List.append_ne_nil_of_right_ne_nil _ more) front

theorem names_ne_nil : list.names ≠ [] :=
  List.append_ne_nil_of_left_ne_nil list.first.text_ne_nil _

theorem startsVisible_names : StartsVisible list.names :=
  list.first.startsVisible_text.append list.first.text_ne_nil _

theorem endsVisible_names : EndsVisible list.names :=
  endsVisible_others list.first.endsVisible_text list.first.text_ne_nil list.others

theorem from_notMem_names : ['f', 'r', 'o', 'm'] ∉ cutNames [] list.names := by
  rw [cutNames_names, List.mem_flatMap]
  rintro ⟨item, -, member⟩
  exact item.from_notMem_pieces member

theorem map_reference_names (source : ReferenceSource) :
    (cutNames [] list.names).map (reference source) =
      list.items.flatMap (Item.references source) := by
  rw [cutNames_names, List.map_flatMap]
  exact List.flatMap_congr fun item _ => item.map_reference_pieces source

end ItemList

namespace FileClause

variable (clause : FileClause)

theorem fromClause?_text :
    fromClause? source? clause.text = some (.file (String.ofList clause.path)) := by
  have quoted : quotedSource? ('"' :: (clause.path ++ ['"'])) = some clause.path :=
    quotedSource?_eq_some_iff.mpr ⟨'"', [], rfl, rfl, clause.closed, by simp⟩
  have behind : behindWord? ['f', 'r', 'o', 'm'] clause.text =
      some ('"' :: (clause.path ++ ['"'])) :=
    (behindWord?_eq_some_iff (startsVisible_cons.mpr (by decide)) (List.cons_ne_nil _ _)).mpr
      ⟨clause.before, clause.after, rfl, clause.isGap.1, clause.isGap.2,
        startsVisible_cons.mpr (by decide)⟩
  rw [fromClause?, behind, Option.bind_some, source?, quoted]

theorem isBlank_head?_text : ∀ character ∈ clause.text.head?, isBlank character := by
  intro character first
  rw [text, List.head?_append_of_ne_nil _ clause.isGap.1.1] at first
  exact clause.isGap.1.2 character (List.mem_of_mem_head? first)

theorem endsVisible_append_text (front : List Char) : EndsVisible (front ++ clause.text) := by
  have whole : front ++ clause.text = front ++ clause.before ++ ['f', 'r', 'o', 'm'] ++
      clause.after ++ ['"'] ++ clause.path ++ ['"'] := by
    simp [text]
  have visible : EndsVisible ['"'] := endsVisible_of_visible (List.any_eq_false.mp (by decide))
  rw [whole]
  exact visible.append (List.cons_ne_nil _ _) _

end FileClause

namespace ItemList

variable (list : ItemList)

theorem readReferences_text :
    readReferences list.text = list.items.flatMap (Item.references list.source) := by
  have absent := list.from_notMem_names
  have visible := list.endsVisible_names
  rw [← map_reference_names, readReferences, text, source, String.toList_ofList]
  cases list.clause with
  | none =>
    have noCut : cutFrom? source? list.names = none := by
      rw [cutFrom?_eq_none_iff]
      intro front back split proper
      by_cases last : back = []
      · rw [last]
        rfl
      · rw [split] at absent visible
        have noClause : fromClause? source? (back ++ []) = none :=
          fromClause?_eq_none absent visible last (by simp)
        rwa [List.append_nil] at noClause
    rw [Option.elim_none, List.append_nil, trimCharacters_eq_self list.startsVisible_names visible,
      noCut]
  | some clause =>
    have cut : cutFrom? source? (list.names ++ clause.text) =
        some (list.names, .file (String.ofList clause.path)) := by
      rw [cutFrom?_eq_some_iff]
      refine ⟨clause.text, rfl, list.names_ne_nil, clause.fromClause?_text, ?_⟩
      intro front back split _ last
      rw [split] at absent visible
      exact fromClause?_eq_none absent visible last clause.isBlank_head?_text
    rw [Option.elim_some, trimCharacters_eq_self
      (list.startsVisible_names.append list.names_ne_nil _)
      (clause.endsVisible_append_text list.names), cut]

end ItemList

/-- A list is read item by item, in order: a name gives one reference, with the source that the
clause names or the file itself, and a name in `global( )` one that is passed through. White space
inside the parentheses takes the item apart, so that each item gives the reference it means exactly
when there is none. -/
theorem composed_items_are_read (list : ItemList) :
    readReferences list.text = list.items.flatMap (Item.references list.source) ∧
      (readReferences list.text = list.items.map (Item.meant list.source) ↔
        ∀ item ∈ list.items, item.IsTight) := by
  refine ⟨list.readReferences_text, ?_⟩
  rw [list.readReferences_text]
  constructor
  · intro same
    apply Item.isTight_of_flatMap_references list.source
    exact Nat.le_of_eq (by rw [same, List.length_map])
  · intro tight
    rw [List.map_eq_flatMap]
    exact List.flatMap_congr fun item member =>
      item.references_of_isTight list.source (tight item member)

/-- The list `a, global(b) from "./x.css"`. -/
def mixed : ItemList where
  first := .own ⟨['a'], by decide, List.forall_mem_singleton.mpr (by decide +kernel)⟩ (by decide)
  others := [(⟨[',', ' '], by decide, List.all_eq_true.mp (by decide +kernel)⟩,
    .global ⟨['b'], by decide, List.forall_mem_singleton.mpr (by decide +kernel)⟩)]
  clause := some ⟨[' '], [' '], "./x.css".toList, by simp [IsGap, isBlank], by decide⟩

theorem mixed_list_is_read :
    readReferences "a, global(b) from \"./x.css\"" =
      [⟨"a", .file "./x.css"⟩, ⟨"b", .passThrough⟩] := by
  have spelled : mixed.text = "a, global(b) from \"./x.css\"" := by decide
  rw [← spelled]
  exact (composed_items_are_read mixed).1

def airy : ItemList where
  first := .spaced [' '] ⟨['a'], by decide, List.forall_mem_singleton.mpr (by decide +kernel)⟩ [' ']
    ⟨List.all_eq_true.mp (by decide), List.all_eq_true.mp (by decide)⟩ (by decide) (by decide)
  others := []
  clause := none

/-- The name in `global( a )` is not passed through: the list is read as three names. -/
theorem white_space_takes_global_apart :
    ¬ ∀ list : ItemList, readReferences list.text = list.items.map (Item.meant list.source) := by
  intro claim
  exact absurd (claim airy) (by decide +kernel)

end ScopedStyles.Composition
