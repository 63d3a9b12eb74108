import ScopedStyles.Module.Settlement
import ScopedStyles.Proofs.Identifier.Mentions

/-!
Substituting symbols and keyframes. A substitution reads the names that the text mentions, all of
them, and nothing else; everything between them is copied. In the value of an animation symbols are
substituted first. A name of keyframes that stands there as a whole is still mentioned afterwards,
unless the text of a symbol before it leaves a string or an address open.
-/

namespace ScopedStyles

open Text

/-! ## What a substitution reads -/

/-- The only symbol is `name`, and it stands for `image`. -/
def OrderedMap.only (name image : String) : OrderedMap String String :=
  empty.insert name image

/-- A symbol of one character makes a text longer than an empty one does, by one for each time that
it is mentioned. -/
theorem Mention.length_flatMap_renamed (word : List Char) (pieces : List Mention) :
    (pieces.flatMap (renamed (OrderedMap.only (String.ofList word) "x").get?)).length =
      (pieces.flatMap (renamed (OrderedMap.only (String.ofList word) "").get?)).length +
        pieces.count (.name word) := by
  induction pieces with
  | nil => rfl
  | cons piece rest induction =>
    rw [List.flatMap_cons, List.flatMap_cons, List.length_append, List.length_append, induction,
      List.count_cons]
    cases piece with
    | other text =>
      simp [renamed]
      omega
    | name other =>
      simp only [renamed, OrderedMap.only, OrderedMap.get?_insert, OrderedMap.get?_empty,
        String.ofList_inj]
      by_cases same : other = word
      · simp [same]
        omega
      · simp [same]
        omega

theorem exists_substituteSymbols_ne {text name : String} (mentions : name ∈ mentionedNames text) :
    ∃ first second : OrderedMap String String,
      (∀ other, other ≠ name → first.get? other = second.get? other) ∧
        substituteSymbols first text ≠ substituteSymbols second text := by
  refine ⟨.only name "x", .only name "", ?_, ?_⟩
  · intro other different
    simp [OrderedMap.only, OrderedMap.get?_insert, different]
  · intro same
    rcases List.mem_filterMap.mp mentions with ⟨mention, inside, isName⟩
    cases mention with
    | other text => cases isName
    | name word =>
      cases isName
      have lengths := Mention.length_flatMap_renamed word (Mention.read text)
      have positive : 0 < (Mention.read text).count (.name word) := List.count_pos_iff.mpr inside
      rw [String.ofList_inj.mp same] at lengths
      omega

/-- The pieces of a text spell it, and the names among them are plain identifiers. Symbols that say
the same of these names come to the same text, and for each of the names there are two that differ
in it alone and do not. So a text is kept by symbols that say nothing of its names, and a literal
that mentions no blocked name does not depend on what the blocked names stand for. -/
theorem substitution_reads_mentioned_names (text : String) :
    (Mention.read text).flatMap Mention.text = text.toList ∧
      (∀ name ∈ mentionedNames text, isIdentifier name) ∧
      (∀ first second : OrderedMap String String,
        (∀ name ∈ mentionedNames text, first.get? name = second.get? name) →
        substituteSymbols first text = substituteSymbols second text) ∧
      (∀ name ∈ mentionedNames text, ∃ first second : OrderedMap String String,
        (∀ other, other ≠ name → first.get? other = second.get? other) ∧
          substituteSymbols first text ≠ substituteSymbols second text) ∧
      (∀ symbols : OrderedMap String String,
        (∀ name ∈ mentionedNames text, symbols.get? name = none) →
        substituteSymbols symbols text = text) ∧
      ∀ (literal : Literal) (blocked : List String), literal.raw = text →
        literal.dependsOn blocked = false →
        ∀ first second : OrderedMap String String,
          (∀ name, name ∉ blocked → first.get? name = second.get? name) →
          substituteSymbols first literal.raw = substituteSymbols second literal.raw := by
  refine ⟨Mention.flatMap_text_readAfter none text.toList,
    fun name mentions => isIdentifier_of_mem_mentionedNames mentions,
    fun first second same => renameMentions_congr same,
    fun name mentions => exists_substituteSymbols_ne mentions,
    fun symbols unknown => renameMentions_eq_self unknown, ?_⟩
  intro literal blocked _ free first second same
  apply renameMentions_congr
  intro name mentions
  have unblocked := List.any_eq_false.mp free name mentions
  exact same name (by simpa using unblocked)

/-- A text with an open string and an open address, in which one name is mentioned. -/
theorem open_text_mentions_one_name :
    let text := "é url(a) b url(c 'd"
    let first : OrderedMap String String := .only "é" "x"
    let second : OrderedMap String String := ⟨[("c", "y"), ("é", "x"), ("d", "z")]⟩
    mentionedNames text = ["é", "b"] ∧
      (∀ name ∈ mentionedNames text, first.get? name = second.get? name) ∧
      substituteSymbols first text = substituteSymbols second text ∧
      substituteSymbols first text = "x url(a) b url(c 'd" := by
  have same : ∀ name ∈ mentionedNames "é url(a) b url(c 'd",
      (OrderedMap.only "é" "x").get? name =
        (⟨[("c", "y"), ("é", "x"), ("d", "z")]⟩ : OrderedMap String String).get? name := by
    decide +kernel
  exact ⟨by decide +kernel, same,
    (substitution_reads_mentioned_names "é url(a) b url(c 'd").2.2.1 _ _ same, by decide +kernel⟩

/-! ## Names of keyframes -/

/-- In the value of an animation symbols are substituted first, and then the names of keyframes. -/
theorem Substitution.value_of_animation {content : Declaration}
    (animates : Keyframes.isAnimation content.name) (state : ModuleState) (text : String) :
    value state content text =
      Keyframes.renameAnimation state.keyframes (substituteSymbols state.symbols text) := by
  rw [value, animates, Bool.true_and]
  cases empty : state.keyframes.isEmpty with
  | false => rfl
  | true =>
    have nothing : state.keyframes = .empty := by
      cases keyframes : state.keyframes
      simpa [keyframes, OrderedMap.isEmpty, OrderedMap.empty] using empty
    symm
    apply renameMentions_eq_self
    intro name _
    rw [nothing, OrderedMap.get?_empty, ite_self]

/-- A name of keyframes that stands in the value of an animation as a whole becomes the scoped name,
if nothing is substituted for it, and the texts substituted before it are closed. -/
theorem Substitution.value_of_stands {state : ModuleState} {content : Declaration}
    {front name back generated : String} (animates : Keyframes.isAnimation content.name)
    (stands : Mention.Stands front.toList name.toList back.toList) (plain : isIdentifier name)
    (noKeyword : lowerAscii name ∉ Keyframes.keywords)
    (noSymbol : state.symbols.get? name = none)
    (named : state.keyframes.get? name = some generated)
    (closed : ∀ word ∈ mentionedNames front, ∀ text, state.symbols.get? word = some text →
      Mention.Closed text.toList) :
    value state content (front ++ name ++ back) =
      value state content front ++ generated ++ value state content back := by
  have images : ∀ word image, .name word ∈ Mention.readAfter none front.toList →
      state.symbols.get? (String.ofList word) = some image → Mention.Closed image.toList := by
    intro word image inside
    exact closed _ (List.mem_filterMap.mpr ⟨.name word, inside, rfl⟩) image
  have stillStands : Mention.Stands (substituteSymbols state.symbols front).toList name.toList
      (substituteSymbols state.symbols back).toList := by
    simpa [substituteSymbols, renameMentions, Mention.read] using stands.renamed images
  have other : Keyframes.keywords.contains (lowerAscii name) = false := by
    simpa using noKeyword
  rw [value_of_animation animates, value_of_animation animates, value_of_animation animates,
    substituteSymbols, renameMentions_of_stands stands plain, noSymbol, Option.getD_none,
    Keyframes.renameAnimation]
  refine (renameMentions_of_stands stillStands plain).trans ?_
  rw [other, named]
  rfl

end ScopedStyles
