import ScopedStyles.Module.ValueRule
import ScopedStyles.Proofs.Text.FromClause

/-!
`@value` rules with a colon. A rule that ends like an import, with the word `from` and a quoted text
or a name behind it, is read as one before the colon is looked at; the colon stands in the name that
it would import, and the rule cannot be read. Any other one is a definition.
-/

namespace ScopedStyles.ValueRule

open Text

variable {text value name : List Char}

/-! ## Name characters -/

theorem passes_of_inRanges {ranges : List CodeRange} (test : Char → Bool)
    (all : ∀ range ∈ ranges, ∀ offset < range.last + 1 - range.first,
      test (Char.ofNat (range.first + offset)))
    {character : Char} (inside : inRanges ranges character) : test character := by
  rcases List.any_eq_true.mp inside with ⟨range, member, contains⟩
  simp only [CodeRange.contains, Bool.and_eq_true, decide_eq_true_eq] at contains
  have passes := all range member (character.toNat - range.first) (by omega)
  rwa [Nat.add_sub_cancel' contains.1.1, Char.ofNat_toNat] at passes

theorem inRanges_of_isBlank {character : Char} (blank : isBlank character) :
    inRanges Property.whiteSpace character := by
  simp only [isBlank, Bool.or_eq_true, Bool.and_eq_true, beq_iff_eq, decide_eq_true_eq] at blank
  rcases blank with (rfl | control) | wide
  · decide
  · simp [inRanges, Property.whiteSpace, CodeRange.contains, control, Nat.mod_one]
  · exact wide.2

theorem not_isNameCharacter_of_isBlank (character : Char) (blank : isBlank character) :
    ¬ isNameCharacter character := by
  have passes := passes_of_inRanges (fun other => !isNameCharacter other) (by decide +kernel)
    (inRanges_of_isBlank blank)
  simpa using passes

theorem not_isNameCharacter_colon : ¬ isNameCharacter ':' := by
  decide +kernel

/-- No white space is in a name or right behind it, when a colon stands there. -/
theorem not_isBlank_of_colon (named : ∀ character ∈ name, isNameCharacter character) :
    ∀ character ∈ name ++ [':'], ¬ isBlank character := by
  rw [List.forall_mem_append]
  refine ⟨fun character member blank => ?_, List.any_eq_false.mp (by decide)⟩
  exact not_isNameCharacter_of_isBlank character blank (named character member)

/-! ## Clauses -/

/-- What can stand behind `from`: a text in quotes, or a name. -/
inductive IsSource : List Char → Prop
  | quoted (quote : Char) (path : List Char) (quotes : isQuote quote) (closed : quote ∉ path) :
    IsSource (quote :: (path ++ [quote]))
  | named (name : List Char) (proper : name ≠ [])
    (all : ∀ character ∈ name, isNameCharacter character) : IsSource name

/-- A text is a `from` clause: the word between white space, a source, and nothing more. -/
def IsClause (text : List Char) : Prop :=
  ∃ before after source trail,
    text = before ++ (['f', 'r', 'o', 'm'] ++ (after ++ (source ++ trail))) ∧
      IsGap before ∧ IsGap after ∧ IsSource source ∧ ∀ character ∈ trail, isBlank character

def EndsInClause (text : List Char) : Prop :=
  ∃ front clause, text = front ++ clause ∧ IsClause clause

theorem IsSource.ne_nil (source : IsSource text) : text ≠ [] := by
  cases source with
  | quoted quote path quotes closed => exact List.cons_ne_nil _ _
  | named name proper all => exact proper

theorem not_isBlank_of_isQuote {quote : Char} (quotes : isQuote quote) : ¬ isBlank quote := by
  simp only [isQuote, Bool.or_eq_true, beq_iff_eq] at quotes
  rcases quotes with rfl | rfl <;> decide

theorem IsSource.startsVisible (source : IsSource text) : StartsVisible text := by
  cases source with
  | quoted quote path quotes closed => exact startsVisible_cons.mpr (not_isBlank_of_isQuote quotes)
  | named name proper all =>
    exact startsVisible_of_visible fun character member blank =>
      not_isNameCharacter_of_isBlank character blank (all character member)

theorem IsSource.endsVisible (source : IsSource text) : EndsVisible text := by
  cases source with
  | quoted quote path quotes closed =>
    have visible : EndsVisible [quote] :=
      endsVisible_of_visible (by simpa using not_isBlank_of_isQuote quotes)
    exact visible.append (List.cons_ne_nil _ _) (quote :: path)
  | named name proper all =>
    exact endsVisible_of_visible fun character member blank =>
      not_isNameCharacter_of_isBlank character blank (all character member)

theorem IsClause.isBlank_head? (clause : IsClause text) :
    ∀ character ∈ text.head?, isBlank character := by
  rcases clause with ⟨before, after, source, trail, rfl, gap, -⟩
  intro character first
  rw [List.head?_append_of_ne_nil before gap.1] at first
  exact gap.2 character (List.mem_of_mem_head? first)

theorem isSome_source? : (source? text).isSome ↔
    ∃ source trail, text = source ++ trail ∧ IsSource source ∧
      ∀ character ∈ trail, isBlank character := by
  have bare {name : List Char} : bareSource? isNameCharacter text = some name ↔ _ :=
    bareSource?_eq_some_iff not_isNameCharacter_of_isBlank
  unfold source?
  constructor
  · intro reads
    split at reads
    · rename_i path quoted
      rcases quotedSource?_eq_some_iff.mp quoted with ⟨quote, trail, rfl, quotes, closed, blank⟩
      exact ⟨quote :: (path ++ [quote]), trail, by simp, .quoted quote path quotes closed, blank⟩
    · rw [Option.isSome_map, Option.isSome_iff_exists] at reads
      rcases reads with ⟨name, found⟩
      rcases bare.mp found with ⟨trail, whole, proper, all, blank⟩
      exact ⟨name, trail, whole, .named name proper all, blank⟩
  · rintro ⟨source, trail, whole, isSource, blank⟩
    split
    · rfl
    · rename_i notQuoted
      rw [Option.isSome_map, Option.isSome_iff_exists]
      cases isSource with
      | quoted quote path quotes closed =>
        have quoted := quotedSource?_eq_some_iff.mpr
          ⟨quote, trail, by simpa using whole, quotes, closed, blank⟩
        rw [notQuoted] at quoted
        cases quoted
      | named name proper all => exact ⟨source, bare.mpr ⟨trail, whole, proper, all, blank⟩⟩

theorem isSome_fromClause? : (fromClause? source? text).isSome ↔ IsClause text := by
  have wordVisible : StartsVisible ['f', 'r', 'o', 'm'] := startsVisible_cons.mpr (by decide)
  rw [fromClause?, Option.isSome_bind, Option.any_eq_true]
  constructor
  · rintro ⟨behind, found, reads⟩
    rcases (behindWord?_eq_some_iff wordVisible (List.cons_ne_nil _ _)).mp found with
      ⟨before, after, whole, gapBefore, gapAfter, -⟩
    rcases isSome_source?.mp reads with ⟨source, trail, rfl, isSource, blank⟩
    exact ⟨before, after, source, trail, whole, gapBefore, gapAfter, isSource, blank⟩
  · rintro ⟨before, after, source, trail, whole, gapBefore, gapAfter, isSource, blank⟩
    have visible := isSource.startsVisible.append isSource.ne_nil trail
    refine ⟨source ++ trail, ?_, isSome_source?.mpr ⟨source, trail, rfl, isSource, blank⟩⟩
    exact (behindWord?_eq_some_iff wordVisible (List.cons_ne_nil _ _)).mpr
      ⟨before, after, whole, gapBefore, gapAfter, visible⟩

/-- A text is cut when a clause stands at its end, behind one character at least. -/
theorem isSome_cutFrom? : (cutFrom? source? text).isSome ↔
    ∃ front clause, text = front ++ clause ∧ front ≠ [] ∧ IsClause clause := by
  rw [Option.isSome_iff_ne_none, Ne, cutFrom?_eq_none_iff]
  constructor
  · intro somewhere
    push Not at somewhere
    rcases somewhere with ⟨front, clause, whole, proper, reads⟩
    exact ⟨front, clause, whole, proper,
      isSome_fromClause?.mp (Option.isSome_iff_ne_none.mpr reads)⟩
  · rintro ⟨front, clause, whole, proper, isClause⟩ nowhere
    have reads := isSome_fromClause?.mpr isClause
    rw [nowhere front clause whole proper] at reads
    cases reads

theorem exists_of_colon_eq_append {front clause : List Char}
    (named : ∀ character ∈ name, isNameCharacter character) (isClause : IsClause clause)
    (whole : name ++ ':' :: text = front ++ clause) :
    ∃ rest, front = name ++ ':' :: rest ∧ text = rest ++ clause := by
  have visible := not_isBlank_of_colon named
  rw [List.append_cons] at whole
  rcases List.append_eq_append_iff.mp whole with ⟨rest, isFront, split⟩ | ⟨rest, nameSplit, split⟩
  · exact ⟨rest, by simpa using isFront, split⟩
  · cases rest with
    | nil => exact ⟨[], by simpa using nameSplit.symm, split.symm⟩
    | cons first rest =>
      have blank : isBlank first := isClause.isBlank_head? first (by simp [split])
      exact absurd blank (visible first (by simp [nameSplit]))

theorem isSome_cutFrom?_colon (named : ∀ character ∈ name, isNameCharacter character) :
    (cutFrom? source? (name ++ ':' :: text)).isSome ↔ EndsInClause text := by
  rw [isSome_cutFrom?]
  constructor
  · rintro ⟨front, clause, whole, -, isClause⟩
    rcases exists_of_colon_eq_append named isClause whole with ⟨rest, -, split⟩
    exact ⟨rest, clause, split, isClause⟩
  · rintro ⟨front, clause, rfl, isClause⟩
    exact ⟨name ++ ':' :: front, clause, by simp, by simp, isClause⟩

instance : DecidablePred EndsInClause := fun text =>
  decidable_of_iff (cutFrom? source? ([] ++ ':' :: text)).isSome (isSome_cutFrom?_colon (by simp))

theorem endsInClause_append_blanks {blanks : List Char}
    (blank : ∀ character ∈ blanks, isBlank character) :
    EndsInClause (text ++ blanks) ↔ EndsInClause text := by
  constructor
  · rintro ⟨front, -, whole, before, after, source, trail, rfl, gapBefore, gapAfter, isSource,
      blankTrail⟩
    rcases exists_trimmedEnd text with ⟨kept, more, rfl, visible, blankMore⟩
    have whole : kept ++ (more ++ blanks) =
        front ++ before ++ ['f', 'r', 'o', 'm'] ++ after ++ source ++ trail := by
      simpa using whole
    have blankBoth : ∀ character ∈ more ++ blanks, isBlank character :=
      List.forall_mem_append.mpr ⟨blankMore, blank⟩
    rw [eq_of_append_blanks visible (isSource.endsVisible.append isSource.ne_nil _) blankBoth
      blankTrail whole]
    exact ⟨front, _, by simp only [List.append_assoc], before, after, source, more, rfl, gapBefore,
      gapAfter, isSource, blankMore⟩
  · rintro ⟨front, -, rfl, before, after, source, trail, rfl, gapBefore, gapAfter, isSource,
      blankTrail⟩
    exact ⟨front, _, by simp only [List.append_assoc], before, after, source, trail ++ blanks, rfl,
      gapBefore, gapAfter, isSource, List.forall_mem_append.mpr ⟨blankTrail, blank⟩⟩

/-! ## Lists with a colon -/

theorem exists_cutCommas_append (noComma : ',' ∉ text) (state : CutState) (rest : List Char) :
    ∃ item items, cutCommas state (text ++ rest) = (text ++ item) :: items := by
  induction text generalizing state with
  | nil => exact List.exists_cons_of_ne_nil (cutCommas_ne_nil state rest)
  | cons character text induction =>
    rw [List.mem_cons, not_or] at noComma
    rcases induction noComma.2 (state.next character) with ⟨item, items, cut⟩
    refine ⟨item, items, ?_⟩
    simp [cutCommas, Ne.symm noComma.1, cut]

section

variable (proper : name ≠ []) (named : ∀ character ∈ name, isNameCharacter character)

include named

theorem takeWhile_colon : (name ++ ':' :: text).takeWhile isNameCharacter = name := by
  rw [List.takeWhile_append_of_pos named, List.takeWhile_cons_of_neg not_isNameCharacter_colon,
    List.append_nil]

theorem dropWhile_colon : (name ++ ':' :: text).dropWhile isNameCharacter = ':' :: text := by
  rw [List.dropWhile_append_of_pos named, List.dropWhile_cons_of_neg not_isNameCharacter_colon]

include proper

theorem definition?_colon : definition? (name ++ ':' :: text) =
    some (.definition (String.ofList name) (String.ofList (trimCharacters text))) := by
  have isDefinition : (':' :: text).dropWhile isBlank = ':' :: text :=
    List.dropWhile_cons_of_neg (by decide)
  simp [definition?, takeWhile_colon named, dropWhile_colon named, isDefinition, proper]

theorem importedName?_colon : importedName? (name ++ ':' :: text) = none := by
  have noWord : behindWord? ['a', 's'] (':' :: text) = none := rfl
  simp [importedName?, takeWhile_colon named, dropWhile_colon named, proper, noWord]

omit proper in
theorem exists_trimCharacters_colon (text : List Char) :
    ∃ kept trail, text = kept ++ trail ∧ (∀ character ∈ trail, isBlank character) ∧
      trimCharacters (name ++ ':' :: text) = name ++ ':' :: kept := by
  have visible := not_isBlank_of_colon named
  simpa using exists_trimCharacters_append (startsVisible_of_visible visible)
    (endsVisible_of_visible visible) (by simp) text

theorem exists_importItems_colon (text : List Char) :
    ∃ rest items, importItems (name ++ ':' :: text) = (name ++ ':' :: rest) :: items := by
  rcases exists_trimCharacters_colon named text with ⟨list, -, -, -, trimmed⟩
  have noComma : ',' ∉ name ++ [':'] := by
    rw [List.mem_append, not_or]
    exact ⟨fun member => absurd (named ',' member) (by decide +kernel), by decide⟩
  have noParentheses : withoutParentheses (name ++ ':' :: list) = name ++ ':' :: list := by
    cases name with
    | nil => rfl
    | cons first others =>
      have opens : first ≠ '(' := by
        rintro rfl
        exact absurd (named '(' List.mem_cons_self) (by decide +kernel)
      rw [List.cons_append, withoutParentheses]
      simpa using opens
  rcases exists_cutCommas_append noComma .initial list with ⟨item, items, cut⟩
  rw [List.append_assoc, List.append_assoc, List.singleton_append, List.singleton_append] at cut
  rcases exists_trimCharacters_colon named item with ⟨rest, -, -, -, trimmedItem⟩
  refine ⟨rest, (items.map trimCharacters).filter fun item => !item.isEmpty, ?_⟩
  rw [importItems, trimmed, noParentheses, commaItems, cut, List.map_cons, trimmedItem,
    List.filter_cons_of_pos (by simp)]

end

theorem parse_of_endsInClause {params : String} (proper : name ≠ [])
    (named : ∀ character ∈ name, isNameCharacter character)
    (trimmed : trimCharacters params.toList = name ++ ':' :: text) (ends : EndsInClause text) :
    parse params = none := by
  rcases Option.isSome_iff_exists.mp ((isSome_cutFrom?_colon named).mpr ends) with
    ⟨⟨list, source⟩, cut⟩
  rcases cutFrom?_eq_some_iff.mp cut with ⟨clause, whole, -, reads, -⟩
  have isClause : IsClause clause := isSome_fromClause?.mp (Option.isSome_of_eq_some reads)
  rcases exists_of_colon_eq_append named isClause whole with ⟨rest, rfl, -⟩
  rcases exists_importItems_colon proper named rest with ⟨more, items, itemsSplit⟩
  have unread : (importItems (name ++ ':' :: rest)).mapM importedName? = none := by
    rw [itemsSplit, List.mapM_cons, importedName?_colon proper named]
    rfl
  rw [parse, trimmed, cut]
  dsimp only
  rw [unread]

theorem parse_of_not_endsInClause {params : String} (proper : name ≠ [])
    (named : ∀ character ∈ name, isNameCharacter character)
    (trimmed : trimCharacters params.toList = name ++ ':' :: text) (ends : ¬ EndsInClause text) :
    parse params =
      some (.definition (String.ofList name) (String.ofList (trimCharacters text))) := by
  have uncut : cutFrom? source? (name ++ ':' :: text) = none := by
    rw [← Option.not_isSome_iff_eq_none, isSome_cutFrom?_colon named]
    exact ends
  rw [parse, trimmed, uncut]
  exact definition?_colon proper named

/-- A name with a colon behind it makes a definition of the trimmed value, unless the value ends in
a `from` clause: then the rule cannot be read at all. -/
theorem colon_makes_definition (name value : String) (proper : name ≠ "")
    (named : ∀ character ∈ name.toList, isNameCharacter character) :
    parse (name ++ ":" ++ value) =
      if EndsInClause value.toList then none else some (.definition name (trim value)) := by
  have nonempty : name.toList ≠ [] := by simpa using proper
  have spelled : (name ++ ":" ++ value).toList = name.toList ++ ':' :: value.toList := by simp
  rcases exists_trimCharacters_colon named value.toList with ⟨kept, trail, split, blank, trimmed⟩
  rw [← spelled] at trimmed
  have sameEnd : EndsInClause value.toList ↔ EndsInClause kept :=
    split ▸ endsInClause_append_blanks blank
  have sameText : trimCharacters kept = trimCharacters value.toList := by
    rw [split, trimCharacters_append_blanks blank]
  split
  · rename_i ends
    exact parse_of_endsInClause nonempty named trimmed (sameEnd.mp ends)
  · rename_i ends
    rw [parse_of_not_endsInClause nonempty named trimmed (mt sameEnd.mpr ends), sameText,
      String.ofList_toList]
    rfl

/-- The value has quotes and the word `from` in it, but it does not end in a clause. -/
theorem shadow_is_defined :
    parse "shadow: 1px from \"left\" red, solid" =
      some (.definition "shadow" "1px from \"left\" red, solid") := by
  have read := colon_makes_definition "shadow" " 1px from \"left\" red, solid" (by decide)
    (List.all_eq_true.mp (by decide +kernel))
  rwa [if_neg (by decide +kernel)] at read

/-- The value `b from "x"` ends in a clause, so its rule defines nothing. -/
theorem clause_hides_definition :
    ¬ ∀ name value : String, name ≠ "" →
      (∀ character ∈ name.toList, isNameCharacter character) →
      parse (name ++ ":" ++ value) = some (.definition name (trim value)) := by
  intro claim
  exact absurd (claim "a" " b from \"x\"" (by decide) (List.all_eq_true.mp (by decide +kernel)))
    (by decide +kernel)

end ScopedStyles.ValueRule
