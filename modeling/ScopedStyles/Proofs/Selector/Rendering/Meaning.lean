import ScopedStyles.Proofs.Selector.ProperNesting
import ScopedStyles.Proofs.Selector.Rendering.Spacing

/-!
What rendered selectors mean. A properly nested selector list without wrappers and switches is
rendered as a list of as many selectors with the same classes and ids, the local ones renamed,
unless trimming cuts an escape or a name at the end of a selector.
-/

namespace ScopedStyles

open Text Selector

namespace Selector

/-! ## Renaming -/

section

variable {mode : Mode} {rename : String → String}

/-- Whether every name is renamed to a name that can be written. -/
def RenamesToNames (rename : String → String) : Prop :=
  ∀ name, rename name ≠ "" ∧ '\x00' ∉ (rename name).toList

theorem respells_respelling (names : RenamesToNames rename) :
    Respells (respelling mode rename) := by
  intro spelling
  unfold respelling
  split
  · refine .inr ⟨(rename (String.ofList (Identifier.decode spelling))).toList, ?_, ?_⟩
    · simpa using (names _).1
    · rw [escapeIdentifier, String.toList_ofList]
  · exact .inl rfl

/-- The class or id of a word whose name is decoded. -/
def Word.decoded? : Word → Option (Sigil × String)
  | .scope => none
  | .name sigil decoded => some (sigil, String.ofList decoded)

theorem decoded?_decode_id (mode : Mode) (word : Word) :
    (word.decode id).decoded? = word.reference? mode id := by
  cases word with
  | scope => rfl
  | name sigil spelling => simp [Word.decode, Word.decoded?, Word.reference?]

theorem decoded?_decode_respelling (names : RenamesToNames rename) (word : Word) :
    (word.decode (respelling mode rename)).decoded? = word.reference? mode rename := by
  cases word with
  | scope => rfl
  | name sigil spelling =>
    rw [Word.decode, Word.decoded?, Word.reference?, respelling]
    split
    · rw [escapeIdentifier, String.toList_ofList, (Identifier.spells_encode _).decode_eq,
        Identifier.writable_eq_self (names _).2, String.ofList_toList]
    · rfl

end

/-! ## Selector lists -/

/-- Whether each selector of a list, at every depth, is printed with an end that trimming keeps. -/
def KeepsEnds (mode : Mode) (rename : String → String) (text : List Char) : Prop :=
  ∀ item ∈ commaItems text,
    keepsEnd (printPieces (respelling mode rename) (Piece.read item)) ∧
      KeepsArguments (respelling mode rename) (Piece.read item)

instance (mode : Mode) (rename : String → String) (text : List Char) :
    Decidable (KeepsEnds mode rename text) :=
  inferInstanceAs (Decidable (∀ item ∈ commaItems text,
    keepsEnd (printPieces (respelling mode rename) (Piece.read item)) ∧
      ∀ printed ∈ selectorPrintedArguments (respelling mode rename) (Piece.read item),
        keepsEnd printed ∧ endsEscaped printed = false))

theorem exists_annotated (mode : Mode) {items : List (List Char)}
    (unscoped : ∀ item ∈ items, .scope ∉ selectorWords (Piece.read item)) :
    ∃ lists, items.mapM (fun item =>
        annotatePieces mode mode.isBlock [] (Piece.read item)) = some lists ∧
      List.Forall₂ (fun item segments => Shows mode segments []
        (fun respell => printPieces respell (Piece.read item))
        (selectorWords (Piece.read item))) items lists := by
  induction items with
  | nil => exact ⟨[], rfl, .nil⟩
  | cons first rest induction =>
    obtain ⟨unscopedFirst, unscopedRest⟩ := List.forall_mem_cons.mp unscoped
    obtain ⟨segments, annotated, shows⟩ :=
      shows_pieces mode mode.isBlock [] (Piece.read first) unscopedFirst
    obtain ⟨lists, annotatedRest, showsRest⟩ := induction unscopedRest
    refine ⟨segments :: lists, ?_, .cons shows showsRest⟩
    rw [List.mapM_cons, annotated, annotatedRest]
    rfl

theorem annotateSelectors_of_mapM {text : String} {mode : Mode} {lists : List (List Segment)}
    (annotated : (commaItems text.toList).mapM (fun item =>
      annotatePieces mode mode.isBlock [] (Piece.read item)) = some lists) :
    annotateSelectors text mode = .ok (lists.map AnnotatedSelector.mk) := by
  rw [annotateSelectors, annotated]

theorem Echo.trimmed {respell : List Char → List Char} {item : List Char} {pieces : List Piece}
    (echo : Echo respell item pieces) (keeps : keepsEnd (printPieces respell pieces)) {depth : Nat}
    {final : Standing} (runs : (Standing.bare [] depth).runWithin item = some final)
    (closed : final.IsClosed) :
    (∃ relaxed, (Standing.bare [] depth).runWithin
        (trimCharacters (printPieces respell pieces)) = some relaxed ∧
      Standing.Relaxes final relaxed) ∧
      readWords (trimCharacters (printPieces respell pieces)) =
        (selectorWords pieces).map (Word.decode respell) := by
  obtain ⟨⟨relaxed, runsPrinted, relaxes⟩, reads⟩ := echo.echoes [] depth final runs closed
  obtain ⟨runsTrimmed, same⟩ :=
    read_trimCharacters runsPrinted (relaxes.isClosed closed) keeps
  exact ⟨⟨relaxed, runsTrimmed, relaxes⟩, same.trans reads⟩

theorem map_eq_of_forall₂ {ι α β : Type} {relation : ι → α → Prop} {items : List ι}
    {values : List α} {left : α → β} {right : ι → β}
    (related : List.Forall₂ relation items values)
    (same : ∀ item ∈ items, ∀ value, relation item value → left value = right item) :
    values.map left = items.map right := by
  induction related with
  | nil => rfl
  | cons first _ induction =>
    rw [List.map_cons, List.map_cons, same _ List.mem_cons_self _ first,
      induction fun item member => same item (List.mem_cons_of_mem _ member)]

/-- The text of a selector once it is rendered. -/
def renderedItem (mode : Mode) (rename : String → String) (item : List Char) : List Char :=
  trimCharacters (printPieces (respelling mode rename) (Piece.read item))

theorem toList_renderSelectors {mode : Mode} {items : List (List Char)}
    {lists : List (List Segment)} (rename : String → String)
    (shows : List.Forall₂ (fun item segments => Shows mode segments []
      (fun respell => printPieces respell (Piece.read item))
      (selectorWords (Piece.read item))) items lists) :
    (renderSelectors rename (lists.map AnnotatedSelector.mk)).toList =
      [','].intercalate (items.map (renderedItem mode rename)) := by
  have sameTexts : lists.map (fun segments => trimCharacters (printed rename segments)) =
      items.map (renderedItem mode rename) := by
    refine map_eq_of_forall₂ shows fun item _ segments shown => ?_
    have prints := shown.prints rename
    rw [List.append_nil] at prints
    rw [renderedItem, prints]
  rw [renderSelectors, String.toList_intercalate, List.map_map, List.map_map, ← sameTexts]
  exact congrArg _ (List.map_congr_left fun segments _ => toList_render rename ⟨segments⟩)

/-- The selectors of a properly nested list, as reading goes through them. -/
theorem items_commaItems {text : List Char} (nested : isProperlyNested text) :
    ∃ final, final.IsClosed ∧
      Standing.Items final (.bare [] text.length) text (commaItems text) := by
  obtain ⟨final, runs, nothing, noGuard⟩ := exists_run_of_isProperlyNested nested
  exact ⟨final, ⟨noGuard, .inr nothing⟩,
    Standing.items_cutCommas (Standing.covered_bare _ _) runs⟩

/-- The rendered selectors are the items of the rendered list, and have the words that were
respelled. -/
theorem items_rendered {mode : Mode} {rename : String → String} {text : List Char}
    (nested : isProperlyNested text)
    (unscoped : ∀ item ∈ commaItems text, .scope ∉ selectorWords (Piece.read item))
    (names : RenamesToNames rename) (keeps : KeepsEnds mode rename text) :
    commaItems ([','].intercalate ((commaItems text).map (renderedItem mode rename))) =
        (commaItems text).map (renderedItem mode rename) ∧
      ∀ item ∈ commaItems text, readWords (renderedItem mode rename item) =
        (selectorWords (Piece.read item)).map (Word.decode (respelling mode rename)) := by
  obtain ⟨final, closed, cuts⟩ := items_commaItems nested
  have echo : ∀ item ∈ commaItems text, Echo (respelling mode rename) item (Piece.read item) :=
    fun item member =>
      echo_read (respells_respelling names) (unscoped item member) (keeps item member).2
  refine ⟨?_, fun item member => ?_⟩
  · obtain ⟨relaxed, _, cutsRendered⟩ := cuts.map (renderedItem mode rename) ⟨_, rfl⟩
      closed fun item member depth last runsItem closedItem =>
        ((echo item member).trimmed (keeps item member).1 runsItem closedItem).1
    exact Standing.cutCommas_of_items cutsRendered
  · obtain ⟨depth, last, runsItem, closedItem, _⟩ :=
      Standing.exists_run_of_mem cuts ⟨_, rfl⟩ closed member
    exact ((echo item member).trimmed (keeps item member).1 runsItem closedItem).2

/-- Whether every name is renamed to a name without white space but control characters. -/
def RenamesPlainly (rename : String → String) : Prop :=
  ∀ name, rename name ≠ "" ∧
    ∀ character ∈ (rename name).toList, isBlank character → character.toNat < 32

/-- Trimming keeps all ends where no white space is escaped or outside ASCII. -/
theorem keepsEnds_of_hasPlainBlanks {mode : Mode} {rename : String → String} {text : List Char}
    (nested : isProperlyNested text)
    (unscoped : ∀ item ∈ commaItems text, .scope ∉ selectorWords (Piece.read item))
    (plain : hasPlainBlanks text) (names : RenamesPlainly rename) :
    KeepsEnds mode rename text := by
  intro item member
  have plainly : RespellsPlainly (respelling mode rename) := by
    intro spelling
    unfold respelling
    split
    · refine .inr ⟨(rename (String.ofList (Identifier.decode spelling))).toList, ?_, ?_, ?_⟩
      · simpa using (names _).1
      · rw [escapeIdentifier, String.toList_ofList]
      · exact (names _).2
    · exact .inl rfl
  obtain ⟨final, closed, cuts⟩ := items_commaItems nested
  obtain ⟨depth, last, runs, closedItem, _⟩ :=
    Standing.exists_run_of_mem cuts ⟨_, rfl⟩ closed member
  obtain ⟨printed, arguments⟩ := printsPlainly_read plainly (unscoped item member) [] depth last
    runs closedItem (hasPlainBlanks_of_mem cuts ⟨_, rfl⟩ plain member)
  exact ⟨keepsEnd_of_hasPlainBlanks printed, arguments⟩

theorem scope_of_readWords {text : List Char} (member : .scope ∈ selectorWords (Piece.read text)) :
    .scope ∈ readWords text :=
  List.mem_map.mpr ⟨.scope, member, rfl⟩

theorem not_scope_decode {words : List Word} (respell : List Char → List Char)
    (unscoped : .scope ∉ words) : .scope ∉ words.map (Word.decode respell) := by
  intro member
  obtain ⟨word, isWord, same⟩ := List.mem_map.mp member
  cases word with
  | scope => exact unscoped isWord
  | name => cases same

/-- The classes and ids that are annotated are those of the words that are read. -/
theorem references_id {mode : Mode} {item : List Char} {segments : List Segment}
    (shows : Shows mode segments [] (fun respell => printPieces respell (Piece.read item))
      (selectorWords (Piece.read item))) :
    references id segments = (readWords item).filterMap Word.decoded? := by
  rw [shows.refers id, readWords, List.filterMap_map]
  exact congrArg (List.filterMap · _) (funext fun word => (decoded?_decode_id mode word).symm)

end Selector

/-- Annotating what is rendered gives as many selectors with the same classes and ids, renamed where
they are local. -/
theorem rendered_selectors_mean_the_same {text : String} {rename : String → String} (mode : Mode)
    (nested : isProperlyNested text.toList)
    (unscoped : ∀ item ∈ commaItems text.toList, .scope ∉ selectorWords (Piece.read item))
    (names : RenamesToNames rename) (keeps : KeepsEnds mode rename text.toList) :
    ∃ selectors again, annotateSelectors text mode = .ok selectors ∧
      annotateSelectors (renderSelectors rename selectors) mode = .ok again ∧
      again.map (fun selector => references id selector.segments) =
        selectors.map (fun selector => references rename selector.segments) := by
  obtain ⟨lists, annotated, shows⟩ := exists_annotated mode unscoped
  obtain ⟨items, reads⟩ := items_rendered nested unscoped names keeps
  rw [← toList_renderSelectors rename shows] at items
  have unscopedRendered : ∀ item ∈ (commaItems text.toList).map (renderedItem mode rename),
      .scope ∉ selectorWords (Piece.read item) := by
    intro rendered member isScope
    obtain ⟨item, isItem, rfl⟩ := List.mem_map.mp member
    have isRead := scope_of_readWords isScope
    rw [reads item isItem] at isRead
    exact not_scope_decode _ (unscoped item isItem) isRead
  obtain ⟨others, annotatedAgain, showsAgain⟩ := exists_annotated mode unscopedRendered
  rw [← items] at annotatedAgain
  refine ⟨_, _, annotateSelectors_of_mapM annotated, annotateSelectors_of_mapM annotatedAgain, ?_⟩
  rw [List.map_map, List.map_map]
  calc others.map (references id)
      = ((commaItems text.toList).map (renderedItem mode rename)).map
          fun item => (readWords item).filterMap Word.decoded? :=
        map_eq_of_forall₂ showsAgain fun item _ segments shown => references_id shown
    _ = (commaItems text.toList).map fun item =>
          (selectorWords (Piece.read item)).filterMap (Word.reference? mode rename) := by
        rw [List.map_map]
        refine List.map_congr_left fun item member => ?_
        rw [Function.comp_apply, reads item member, List.filterMap_map]
        exact congrArg (List.filterMap · _)
          (funext fun word => decoded?_decode_respelling names word)
    _ = lists.map (references rename) :=
        (map_eq_of_forall₂ shows fun item _ segments shown => shown.refers rename).symm

/-- The classes and ids of a selector list, renamed where they are local. -/
def annotatedReferences (rename : String → String) (text : String) (mode : Mode) :
    Option (List (List (Sigil × String))) :=
  (annotateSelectors text mode).toOption.map fun selectors =>
    selectors.map fun selector => references rename selector.segments

/-- Every name is renamed to one that begins with a digit, which is spelled by its code. -/
def numbered (name : String) : String :=
  "1" ++ name.map fun character => if character = '\x00' then '_' else character

/-- Escapes, brackets in brackets, a parenthesis in a string, and arguments that are trimmed. -/
def nestedList : String := ".a\\32  [x[y='(']](.b) > #c:not(.d\\,e , [f] .g\\31 ) , h::i(.j) .-k"

theorem renamesToNames_numbered : RenamesToNames numbered := by
  intro name
  have spelled : (numbered name).toList = '1' :: name.toList.map fun character =>
      if character = '\x00' then '_' else character := by simp [numbered]
  refine ⟨fun empty => ?_, fun member => ?_⟩
  · rw [empty] at spelled
    cases spelled
  · rw [spelled] at member
    rcases List.mem_cons.mp member with isDigit | member
    · exact absurd isDigit (by decide)
    · obtain ⟨character, _, same⟩ := List.mem_map.mp member
      split at same
      · exact absurd same (by decide)
      · rename_i noNul
        exact noNul same

theorem nestedList_means_the_same :
    isProperlyNested nestedList.toList ∧
      (∀ item ∈ commaItems nestedList.toList, .scope ∉ selectorWords (Piece.read item)) ∧
      RenamesToNames numbered ∧ KeepsEnds .locally numbered nestedList.toList ∧
      annotatedReferences numbered nestedList .locally =
        some [[(.dot, "1a2"), (.dot, "1b"), (.hash, "1c"), (.dot, "1d,e"), (.dot, "1g1")],
          [(.dot, "1-k")]] ∧
      ∃ selectors again, annotateSelectors nestedList .locally = .ok selectors ∧
        annotateSelectors (renderSelectors numbered selectors) .locally = .ok again ∧
        again.map (fun selector => references id selector.segments) =
          selectors.map (fun selector => references numbered selector.segments) := by
  have nested : isProperlyNested nestedList.toList := by decide +kernel
  have unscoped : ∀ item ∈ commaItems nestedList.toList,
      .scope ∉ selectorWords (Piece.read item) := by decide +kernel
  have keeps : KeepsEnds .locally numbered nestedList.toList := by decide +kernel
  exact ⟨nested, unscoped, renamesToNames_numbered, keeps, by decide +kernel,
    rendered_selectors_mean_the_same .locally nested unscoped renamesToNames_numbered keeps⟩

/-- An escaped space at the end of a selector is cut off, and the backslash takes the comma behind
it: two classes become two classes of one selector, with another name. -/
theorem escaped_space_is_cut :
    isProperlyNested ".a\\ ,.b".toList ∧
      (∀ item ∈ commaItems ".a\\ ,.b".toList, .scope ∉ selectorWords (Piece.read item)) ∧
      RenamesToNames numbered ∧
      annotatedReferences numbered ".a\\ ,.b" .globally = some [[(.dot, "a ")], [(.dot, "b")]] ∧
      (annotateSelectors ".a\\ ,.b" .globally).toOption.map (renderSelectors numbered) =
        some ".a\\,.b" ∧
      annotatedReferences id ".a\\,.b" .globally = some [[(.dot, "a,"), (.dot, "b")]] := by
  refine ⟨?_, ?_, renamesToNames_numbered, ?_⟩ <;> decide +kernel

end ScopedStyles
