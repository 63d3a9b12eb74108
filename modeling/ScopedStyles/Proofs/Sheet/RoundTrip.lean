import ScopedStyles.Proofs.Sheet.Clean
import ScopedStyles.Sheet.Parse
import ScopedStyles.Sheet.Printer

/-!
Reading what has been printed. A printed node yields its own events whatever follows it, except
that a declaration needs an end; so a printed list of nodes yields the events of the list, and the
events build the list again. Locations are those of the printed text, and play no part.
-/

namespace ScopedStyles

open Text

namespace Node

/-! ## Trees without locations -/

mutual
/-- A node with every location at the start. -/
def unlocated : Node → Node
  | .rule selector body _ => .rule selector (unlocatedAll body) .start
  | .block name params body _ => .block name params (unlocatedAll body) .start
  | .statement name params _ => .statement name params .start
  | .declaration content => .declaration { content with location := .start }
  | .comment text _ => .comment text .start

def unlocatedAll : List Node → List Node
  | [] => []
  | first :: rest => first.unlocated :: unlocatedAll rest
end

theorem unlocatedAll_eq_map (nodes : List Node) : unlocatedAll nodes = nodes.map unlocated := by
  induction nodes with
  | nil => rfl
  | cons first rest induction => rw [unlocatedAll, induction, List.map_cons]

theorem eq_rule_of_unlocated {node : Node} {selector : String} {body : List Node}
    (same : node.unlocated = .rule selector body .start) :
    ∃ inside location, node = .rule selector inside location ∧ unlocatedAll inside = body := by
  cases node with
  | rule => exact ⟨_, _, by rw [(Node.rule.inj same).1], (Node.rule.inj same).2.1⟩
  | _ => cases same

theorem eq_declaration_of_unlocated {node : Node} (content : Declaration)
    (same : node.unlocated = .declaration { content with location := .start }) :
    ∃ location, node = .declaration { content with location } := by
  cases node with
  | declaration other =>
    obtain ⟨property, value, location⟩ := other
    injection same with same
    injection same with sameProperty sameValue
    dsimp only at sameProperty sameValue
    exact ⟨location, by rw [sameProperty, sameValue]⟩
  | _ => cases same

theorem eq_singleton_of_unlocatedAll {nodes : List Node} {node : Node}
    (same : unlocatedAll nodes = [node]) : ∃ first, nodes = [first] ∧ first.unlocated = node := by
  rw [unlocatedAll_eq_map] at same
  exact List.map_eq_singleton_iff.mp same

/-! ## Printable trees -/

/-- Whether a comment with this text would end before its end. -/
def endsComment : List Char → Bool
  | [] => false
  | character :: rest => Region.closesComment character rest.head? || endsComment rest

mutual
/-- Whether a node is read as it is printed: its texts are clean, a comment does not end inside its
text, the name of an at-rule ends where its parameters begin, nothing else begins like an at-rule,
and a declaration has a property that ends at its colon, and something to print. -/
def isPrintable : Node → Bool
  | .rule selector body _ =>
    isClean braces selector && selector.toList.head? != some '@' && allPrintable body
  | .block name params body _ =>
    name.toList.all Event.isNameCharacter && isClean braces params && allPrintable body
  | .statement name params _ => name.toList.all Event.isNameCharacter && isClean braces params
  | .declaration ⟨property, value, _⟩ =>
    isClean (':' :: braces) property && property.toList.head? != some '@' &&
      match value with
      | some value => isClean braces value
      | none => !property.isEmpty
  | .comment text _ => !endsComment text.toList

def allPrintable : List Node → Bool
  | [] => true
  | first :: rest => first.isPrintable && allPrintable rest
end

/-! ## Events of a tree -/

mutual
/-- The events of a node, without locations. -/
def events : Node → List Event
  | .rule selector body _ => .opens (.rule selector .start) :: eventsAll body ++ [.closes]
  | .block name params body _ => .opens (.block name params .start) :: eventsAll body ++ [.closes]
  | .statement name params _ => [.leaf (.statement name params .start)]
  | .declaration content => [.leaf (.declaration { content with location := .start })]
  | .comment text _ => [.leaf (.comment text .start)]

def eventsAll : List Node → List Event
  | [] => []
  | first :: rest => first.events ++ eventsAll rest
end

mutual
theorem build_events (openBlocks : List OpenBlock) (before : List Node) (behind : List Event) :
    (node : Node) → build openBlocks before (node.events ++ behind) =
      build openBlocks (node.unlocated :: before) behind
  | .rule selector body _ => by
    simp only [events, List.cons_append, List.append_assoc, build, build_eventsAll, List.append_nil,
      List.nil_append, OpenBlock.close, List.reverse_reverse, Opening.close, unlocated]
  | .block name params body _ => by
    simp only [events, List.cons_append, List.append_assoc, build, build_eventsAll, List.append_nil,
      List.nil_append, OpenBlock.close, List.reverse_reverse, Opening.close, unlocated]
  | .statement .. | .declaration _ | .comment .. => rfl

theorem build_eventsAll (openBlocks : List OpenBlock) (before : List Node)
    (behind : List Event) :
    (nodes : List Node) → build openBlocks before (eventsAll nodes ++ behind) =
      build openBlocks ((unlocatedAll nodes).reverse ++ before) behind
  | [] => rfl
  | first :: rest => by
    rw [eventsAll, List.append_assoc, build_events, build_eventsAll, unlocatedAll,
      List.reverse_cons, List.append_assoc]
    rfl
end

theorem ofEvents_eventsAll (nodes : List Node) : ofEvents (eventsAll nodes) = unlocatedAll nodes := by
  have built := build_eventsAll [] [] [] nodes
  rw [List.append_nil, List.append_nil] at built
  rw [ofEvents, built, build, OpenBlock.closeAll, List.foldl_nil, List.reverse_reverse]

end Node

/-! ## Locations play no part in building nodes -/

def Opening.unlocated : Opening → Opening
  | .rule selector _ => .rule selector .start
  | .block name params _ => .block name params .start

def Event.unlocated : Event → Event
  | .opens opening => .opens opening.unlocated
  | .leaf node => .leaf node.unlocated
  | .closes => .closes

namespace OpenBlock

def unlocated (openBlock : OpenBlock) : OpenBlock :=
  ⟨openBlock.opening.unlocated, Node.unlocatedAll openBlock.before⟩

theorem unlocatedAll_close (openBlock : OpenBlock) (nodes : List Node) :
    Node.unlocatedAll (openBlock.close nodes) =
      openBlock.unlocated.close (Node.unlocatedAll nodes) := by
  obtain ⟨opening, before⟩ := openBlock
  simp only [close, unlocated, Node.unlocatedAll_eq_map, List.map_cons, ← List.map_reverse]
  cases opening <;> simp only [Opening.close, Opening.unlocated, Node.unlocated,
    Node.unlocatedAll_eq_map]

theorem unlocatedAll_closeAll (nodes : List Node) (openBlocks : List OpenBlock) :
    Node.unlocatedAll (closeAll nodes openBlocks) =
      closeAll (Node.unlocatedAll nodes) (openBlocks.map unlocated) := by
  induction openBlocks generalizing nodes with
  | nil => rfl
  | cons innermost outer induction =>
    exact (induction (innermost.close nodes)).trans (by rw [unlocatedAll_close]; rfl)

end OpenBlock

namespace Node

theorem unlocatedAll_build (openBlocks : List OpenBlock) (nodes : List Node)
    (events : List Event) :
    unlocatedAll (build openBlocks nodes events) =
      build (openBlocks.map OpenBlock.unlocated) (unlocatedAll nodes)
        (events.map Event.unlocated) := by
  induction events generalizing openBlocks nodes with
  | nil =>
    rw [List.map_nil, build, build, ← OpenBlock.unlocatedAll_closeAll, unlocatedAll_eq_map,
      unlocatedAll_eq_map, List.map_reverse]
  | cons event events induction =>
    cases event with
    | opens opening => exact induction (⟨opening, nodes⟩ :: openBlocks) []
    | leaf node => exact induction openBlocks (node :: nodes)
    | closes =>
      cases openBlocks with
      | nil => exact induction [] nodes
      | cons innermost outer =>
        refine (induction outer (innermost.close nodes)).trans ?_
        rw [OpenBlock.unlocatedAll_close]
        rfl

theorem unlocatedAll_ofEvents (events : List Event) :
    unlocatedAll (ofEvents events) = ofEvents (events.map Event.unlocated) :=
  unlocatedAll_build [] [] events

end Node

/-! ## Reading a part of a text -/

/-- A text that stands before `tail` is read as these events, wherever it stands, and reading goes
on with `tail`. -/
def Yields (text : List Char) (events : List Event) (tail : List Char) : Prop :=
  ∀ entries : List LocatedCharacter, entries.map LocatedCharacter.character = text ++ tail →
    ∃ rest, rest.map LocatedCharacter.character = tail ∧
      (Event.scan entries).map Event.unlocated =
        events ++ (Event.scan rest).map Event.unlocated

namespace Yields

variable {text others tail : List Char} {events behind : List Event}

theorem nil (tail : List Char) : Yields [] [] tail :=
  fun entries spells => ⟨entries, spells, rfl⟩

theorem append (first : Yields text events (others ++ tail)) (second : Yields others behind tail) :
    Yields (text ++ others) (events ++ behind) tail := by
  intro entries spells
  rw [List.append_assoc] at spells
  obtain ⟨middle, spellsMiddle, read⟩ := first entries spells
  obtain ⟨rest, spellsRest, readRest⟩ := second middle spellsMiddle
  exact ⟨rest, spellsRest, by rw [read, readRest, List.append_assoc]⟩

theorem semicolon (tail : List Char) : Yields [';'] [] tail := by
  intro entries spells
  obtain ⟨first, rest, rfl, isSemicolon, spellsRest⟩ := List.map_eq_cons_iff.mp spells
  refine ⟨rest, spellsRest, ?_⟩
  rw [Event.scan, if_pos (by simp [isSemicolon])]
  rfl

theorem closing (tail : List Char) : Yields ['}'] [.closes] tail := by
  intro entries spells
  obtain ⟨first, rest, rfl, isClosing, spellsRest⟩ := List.map_eq_cons_iff.mp spells
  refine ⟨rest, spellsRest, ?_⟩
  rw [Event.scan, if_neg (by rw [isClosing]; decide), if_pos isClosing]
  rfl

end Yields

/-! ## Comments -/

theorem Event.spanComment_of_spells {entries : List LocatedCharacter} {text tail : List Char}
    (spells : entries.map LocatedCharacter.character = text ++ '*' :: '/' :: tail)
    (unclosed : Node.endsComment text = false) :
    ∃ rest, rest.map LocatedCharacter.character = tail ∧ spanComment entries = (text, rest) := by
  induction text generalizing entries with
  | nil =>
    obtain ⟨star, behind, rfl, isStar, spells⟩ := List.map_eq_cons_iff.mp spells
    obtain ⟨slash, rest, rfl, isSlash, spells⟩ := List.map_eq_cons_iff.mp spells
    refine ⟨rest, spells, ?_⟩
    rw [spanComment, if_pos]
    · rfl
    · simp [Region.closesComment, Prelude.following, isStar, isSlash]
  | cons character text induction =>
    obtain ⟨first, behind, rfl, isFirst, spells⟩ := List.map_eq_cons_iff.mp spells
    obtain ⟨noEnd, unclosed⟩ := Bool.or_eq_false_iff.mp unclosed
    obtain ⟨rest, spellsRest, read⟩ := induction spells unclosed
    refine ⟨rest, spellsRest, ?_⟩
    rw [spanComment, if_neg, read, isFirst]
    -- The end would stand in the text, or begin with its last character and the star behind it.
    rw [Prelude.following, ← List.head?_map, spells, isFirst]
    cases text with
    | nil => simp [Region.closesComment]
    | cons second text => simpa using noEnd

theorem Yields.comment {text : String} (unclosed : Node.endsComment text.toList = false)
    (tail : List Char) :
    Yields (['/', '*'] ++ text.toList ++ ['*', '/']) [.leaf (.comment text .start)] tail := by
  intro entries spells
  simp only [List.cons_append, List.nil_append, List.append_assoc] at spells
  obtain ⟨slash, behind, rfl, isSlash, spells⟩ := List.map_eq_cons_iff.mp spells
  obtain ⟨star, inside, rfl, isStar, spells⟩ := List.map_eq_cons_iff.mp spells
  obtain ⟨rest, spellsRest, read⟩ := Event.spanComment_of_spells spells unclosed
  refine ⟨rest, spellsRest, ?_⟩
  have opens : Region.opensComment slash.character (Prelude.following (star :: inside)) := by
    simp [Region.opensComment, Prelude.following, isSlash, isStar]
  rw [Event.scan, if_neg (by rw [isSlash]; decide), if_neg (by rw [isSlash]; decide), if_pos opens]
  simp only [List.drop_succ_cons, List.drop_zero, read, List.map_cons, Event.unlocated,
    Node.unlocated, String.ofList_toList, List.singleton_append]

/-! ## Heads of rules, and declarations -/

theorem not_mem_braces {text : List Char} {first : Char}
    (closed : isClosed braces 0 none false (first :: text)) : first ∉ braces := by
  intro member
  rcases (by simpa [braces] using member : first = '{' ∨ first = '}' ∨ first = ';') with
    rfl | rfl | rfl <;> simp [isClosed, isQuote, braces] at closed

/-- A clean text that does not begin like an at-rule is read as a prelude. -/
theorem Event.scan_prelude {text rest : List LocatedCharacter}
    (closed : isClosed braces 0 none false (text.map LocatedCharacter.character))
    (apart : Prelude.following rest ≠ some '*')
    (noBlank : ¬ (text.map LocatedCharacter.character).head?.any isBlank)
    (noAtRule : (text.map LocatedCharacter.character).head? ≠ some '@') (some : text ≠ []) :
    ∃ location, scan (text ++ rest) =
      ofPrelude { Prelude.read rest with
        text := text.map LocatedCharacter.character ++ (Prelude.read rest).text } location ++
          scan (Prelude.read rest).rest := by
  cases text with
  | nil => exact absurd rfl some
  | cons first text =>
    have noBrace := not_mem_braces closed
    simp only [braces, List.mem_cons, List.not_mem_nil, or_false, not_or] at noBrace
    have noComment := Prelude.opensComment_eq_false closed apart
    have read := Prelude.scan_closed closed apart
    rw [Region.inside, ← Prelude.read, List.cons_append] at read
    refine ⟨first.location, ?_⟩
    rw [List.cons_append, scan, if_neg (by simpa [noBrace] using noBlank), if_neg noBrace.2.1,
      if_neg (by simp [noComment]), if_neg (by simpa using noAtRule), read]

theorem Yields.trimmedHead {head : List Char} (closed : isClosed braces 0 none false head)
    (noBlank : ¬ head.head?.any isBlank) (noAtRule : head.head? ≠ some '@') (some : head ≠ [])
    (tail : List Char) :
    Yields (head ++ ['{']) [.opens (.rule (String.ofList (trimCharacters head)) .start)] tail := by
  intro entries spells
  rw [List.append_assoc] at spells
  obtain ⟨text, behind, rfl, spellsText, spells⟩ := List.map_eq_append_iff.mp spells
  obtain ⟨brace, rest, rfl, isBrace, spells⟩ := List.map_eq_cons_iff.mp spells
  refine ⟨rest, spells, ?_⟩
  subst spellsText
  have ends : Prelude.terminator? .code 0 brace.character = .some .opening := by
    rw [isBrace]
    rfl
  have apart : Prelude.following (brace :: rest) ≠ .some '*' := by
    simp [Prelude.following, isBrace]
  obtain ⟨location, read⟩ :=
    Event.scan_prelude closed apart noBlank noAtRule (by simpa using some)
  rw [read, Prelude.read_terminator ends, List.append_nil]
  rfl

theorem Yields.ruleHead {selector : String} (clean : isClean braces selector)
    (noAtRule : selector.toList.head? ≠ some '@') (tail : List Char) :
    Yields (selector.toList ++ ['{']) [.opens (.rule selector .start)] tail := by
  by_cases isEmpty : selector = ""
  · subst isEmpty
    intro entries spells
    obtain ⟨brace, rest, rfl, isBrace, spells⟩ := List.map_eq_cons_iff.mp spells
    have ends : Prelude.terminator? .code 0 brace.character = some .opening := by
      rw [isBrace]
      rfl
    refine ⟨rest, spells, ?_⟩
    rw [Event.scan, if_neg (by rw [isBrace]; decide), if_neg (by rw [isBrace]; decide),
      if_neg (by simp [Region.opensComment, isBrace]), if_neg (by rw [isBrace]; decide),
      Prelude.read_terminator ends]
    rfl
  · have head := Yields.trimmedHead (isClosed_of_isClean clean) (not_isBlank_of_isClean clean).1
      noAtRule (by simpa using isEmpty) tail
    rwa [trimCharacters_of_isClean clean, String.ofList_toList] at head

/-- A declaration that is read as it is printed is clean as a whole. -/
structure Declaration.Spelled (content : Declaration) : Prop where
  closed : isClosed braces 0 none false (Node.printDeclaration content)
  front : ¬ (Node.printDeclaration content).head?.any isBlank
  back : ¬ (Node.printDeclaration content).getLast?.any isBlank
  noAtRule : (Node.printDeclaration content).head? ≠ some '@'
  some : Node.printDeclaration content ≠ []
  reads : ∀ location, Declaration.ofText (Node.printDeclaration content) location =
    { content with location }

theorem Declaration.spelled {content : Declaration}
    (printable : (Node.declaration content).isPrintable) : content.Spelled := by
  obtain ⟨property, value, location⟩ := content
  simp only [Node.isPrintable, Bool.and_eq_true, bne_iff_ne, ne_eq] at printable
  obtain ⟨⟨clean, noAtRule⟩, valid⟩ := printable
  have closed := isClosed_of_isClean clean
  have ends := not_isBlank_of_isClean clean
  have closedBraces := isClosed_of_subset (List.subset_cons_self ':' braces) closed
  have cut := cutColon_closed closed List.mem_cons_self
  cases value with
  | none =>
    have spelling : Node.printDeclaration ⟨property, none, location⟩ = property.toList :=
      List.append_nil _
    refine ⟨?_, ?_, ?_, ?_, ?_, fun _ => ?_⟩ <;> rw [spelling]
    · exact closedBraces
    · exact ends.1
    · exact ends.2
    · exact noAtRule
    · simpa using valid
    · have uncut := cut []
      rw [List.append_nil] at uncut
      rw [Declaration.ofText, ColonState.initial, uncut]
      simp [cutColon]
  | some value =>
    have spelling : Node.printDeclaration ⟨property, some value, location⟩ =
        property.toList ++ ':' :: value.toList := rfl
    have endsValue := not_isBlank_of_isClean valid
    refine ⟨?_, ?_, ?_, ?_, ?_, fun _ => ?_⟩ <;> rw [spelling]
    · refine isClosed_append closedBraces ?_ (by simp)
      simpa [isClosed, isQuote, braces] using isClosed_of_isClean valid
    · cases spelled : property.toList with
      | nil => exact Bool.false_ne_true
      | cons first rest => simpa [spelled] using ends.1
    · rw [List.getLast?_append, List.getLast?_cons, Option.some_or, ← List.getLast?_cons]
      cases spelled : value.toList with
      | nil => exact Bool.false_ne_true
      | cons first rest =>
        rw [List.getLast?_cons_cons, ← spelled]
        exact endsValue.2
    · cases spelled : property.toList with
      | nil => simp
      | cons first rest => simpa [spelled] using noAtRule
    · simp
    · rw [Declaration.ofText, ColonState.initial, cut]
      simp [cutColon, ColonState.initial, ColonState.separates, trimCharacters_of_isClean clean,
        trimCharacters_of_isClean valid]

/-- What can follow a declaration: nothing, a semicolon, or the end of the block. -/
def endsDeclaration (tail : List Char) : Prop :=
  tail = [] ∨ tail.head? = some ';' ∨ tail.head? = some '}'

theorem Event.ofPrelude_ends {rest : List LocatedCharacter}
    (ends : endsDeclaration (rest.map LocatedCharacter.character)) (text : List Char)
    (location : Location) :
    ofPrelude { Prelude.read rest with text := text ++ (Prelude.read rest).text } location ++
        scan (Prelude.read rest).rest = ofStatement text location ++ scan rest := by
  cases rest with
  | nil => rw [Prelude.read, Prelude.scan, List.append_nil, ofPrelude]
  | cons entry rest =>
    rcases ends with isEmpty | isSemicolon | isClosing
    · cases isEmpty
    · have isSemicolon : entry.character = ';' := Option.some.inj isSemicolon
      have terminates : Prelude.terminator? .code 0 entry.character = some .semicolon := by
        rw [isSemicolon]
        rfl
      have skips : scan (entry :: rest) = scan rest := by
        rw [scan, if_pos (by simp [isSemicolon])]
      rw [Prelude.read_terminator terminates, List.append_nil, skips, ofPrelude]
    · have isClosing : entry.character = '}' := Option.some.inj isClosing
      have terminates : Prelude.terminator? .code 0 entry.character = some .closing := by
        rw [isClosing]
        rfl
      have closes : scan (entry :: rest) = .closes :: scan rest := by
        rw [scan, if_neg (by rw [isClosing]; decide), if_pos isClosing]
      rw [Prelude.read_terminator terminates, List.append_nil, closes, ofPrelude,
        List.append_assoc, List.singleton_append]

theorem Yields.declaration {content : Declaration}
    (printable : (Node.declaration content).isPrintable) {tail : List Char}
    (ends : endsDeclaration tail) :
    Yields (Node.printDeclaration content) (Node.declaration content).events tail := by
  have spelled := Declaration.spelled printable
  intro entries spells
  obtain ⟨text, rest, rfl, spellsText, rfl⟩ := List.map_eq_append_iff.mp spells
  have apart : Prelude.following rest ≠ some '*' := by
    rw [Prelude.following, ← List.head?_map]
    rcases ends with isEmpty | isSemicolon | isClosing
    · simp [isEmpty]
    · simp [isSemicolon]
    · simp [isClosing]
  have some : text ≠ [] := by
    rintro rfl
    exact spelled.some spellsText.symm
  obtain ⟨location, read⟩ := Event.scan_prelude (spellsText ▸ spelled.closed) apart
    (spellsText ▸ spelled.front) (spellsText ▸ spelled.noAtRule) some
  have trimmed := trimCharacters_eq_self spelled.front spelled.back
  have isSome : (Node.printDeclaration content).isEmpty = false := by
    simpa using spelled.some
  refine ⟨rest, rfl, ?_⟩
  rw [read, spellsText, Event.ofPrelude_ends ends, Event.ofStatement, trimmed, isSome,
    spelled.reads]
  rfl

/-! ## At-rules -/

theorem isClosed_printParams {params : String} (clean : isClean braces params) :
    isClosed braces 0 none false (Node.printParams params) := by
  unfold Node.printParams
  split
  · rfl
  · simpa [isClosed, isQuote, braces] using isClosed_of_isClean clean

theorem trimCharacters_printParams {params : String} (clean : isClean braces params) :
    trimCharacters (Node.printParams params) = params.toList := by
  unfold Node.printParams
  split
  · rename_i isEmpty
    rw [String.isEmpty_iff.mp isEmpty]
    rfl
  · have trimmed := trimCharacters_of_isClean clean
    rw [trimCharacters, List.dropWhile_cons_of_pos (by decide)]
    exact trimmed

/-- A name is read up to the first character that is none of its own. -/
theorem Event.name_append {named : List LocatedCharacter} {first : LocatedCharacter}
    {behind : List LocatedCharacter}
    (all : ∀ character ∈ named.map LocatedCharacter.character, isNameCharacter character)
    (stops : isNameCharacter first.character = false) :
    nameOf (named ++ first :: behind) = named.map LocatedCharacter.character ∧
      afterName (named ++ first :: behind) = first :: behind := by
  constructor
  · rw [nameOf, List.map_append, List.takeWhile_append_of_pos all, List.map_cons,
      List.takeWhile_cons_of_neg (by simp [stops]), List.append_nil]
  · rw [afterName, List.dropWhile_append_of_pos fun entry member =>
      all _ (List.mem_map_of_mem member), List.dropWhile_cons_of_neg (by simp [stops])]

/-- An at-rule is read through the brace or semicolon behind its parameters. -/
theorem Event.scan_atRule {entries : List LocatedCharacter} {name params : String}
    {ending : Char} {terminator : Terminator} {tail : List Char}
    (named : name.toList.all isNameCharacter) (clean : isClean braces params)
    (ends : Prelude.terminator? .code 0 ending = some terminator)
    (noName : isNameCharacter ending = false)
    (spells : entries.map LocatedCharacter.character =
      '@' :: name.toList ++ Node.printParams params ++ [ending] ++ tail) :
    ∃ rest location, rest.map LocatedCharacter.character = tail ∧
      scan entries =
        ofAtRule name.toList ⟨Node.printParams params, terminator, rest⟩ location ++ scan rest := by
  simp only [List.cons_append, List.append_assoc, List.nil_append] at spells
  obtain ⟨sign, behind, rfl, isSign, spells⟩ := List.map_eq_cons_iff.mp spells
  obtain ⟨nameEntries, others, rfl, spellsName, spells⟩ := List.map_eq_append_iff.mp spells
  obtain ⟨paramEntries, last, rfl, spellsParams, spells⟩ := List.map_eq_append_iff.mp spells
  obtain ⟨entry, rest, rfl, isEnding, spells⟩ := List.map_eq_cons_iff.mp spells
  refine ⟨rest, sign.location, spells, ?_⟩
  have all : ∀ character ∈ nameEntries.map LocatedCharacter.character,
      isNameCharacter character := by
    rw [spellsName]
    exact List.all_eq_true.mp named
  obtain ⟨first, more, whole, stops⟩ : ∃ first more,
      paramEntries ++ entry :: rest = first :: more ∧ isNameCharacter first.character = false := by
    cases paramEntries with
    | nil => exact ⟨entry, rest, rfl, isEnding ▸ noName⟩
    | cons first more =>
      refine ⟨first, more ++ entry :: rest, rfl, ?_⟩
      unfold Node.printParams at spellsParams
      split at spellsParams
      · cases spellsParams
      · rw [(List.cons_eq_cons.mp spellsParams).1]
        decide
  have read := Prelude.read_closed (spellsParams ▸ isClosed_printParams clean)
    (isEnding ▸ ends) rest
  obtain ⟨isName, isBehind⟩ := name_append all stops
  rw [scan, if_neg (by rw [isSign]; decide), if_neg (by rw [isSign]; decide),
    if_neg (by simp [Region.opensComment, isSign]), if_pos isSign, whole, isName, isBehind, ← whole,
    read, spellsName, spellsParams]

theorem Yields.blockHead {name params : String} (named : name.toList.all Event.isNameCharacter)
    (clean : isClean braces params) (tail : List Char) :
    Yields ('@' :: name.toList ++ Node.printParams params ++ ['{'])
      [.opens (.block name params .start)] tail := by
  intro entries spells
  obtain ⟨rest, location, spellsRest, read⟩ :=
    Event.scan_atRule named clean rfl (by decide) spells
  refine ⟨rest, spellsRest, ?_⟩
  rw [read]
  simp only [Event.ofAtRule, trimCharacters_printParams clean, String.ofList_toList, List.map_append,
    List.map_cons, List.map_nil, Event.unlocated, Opening.unlocated]

theorem Yields.statement {name params : String} (named : name.toList.all Event.isNameCharacter)
    (clean : isClean braces params) (tail : List Char) :
    Yields ('@' :: name.toList ++ Node.printParams params ++ [';'])
      [.leaf (.statement name params .start)] tail := by
  intro entries spells
  obtain ⟨rest, location, spellsRest, read⟩ :=
    Event.scan_atRule named clean rfl (by decide) spells
  refine ⟨rest, spellsRest, ?_⟩
  rw [read]
  simp only [Event.ofAtRule, trimCharacters_printParams clean, String.ofList_toList, List.map_append,
    List.map_cons, List.map_nil, Event.unlocated, Node.unlocated]

/-! ## Trees -/

theorem Yields.block {head body tail : List Char} {opening : Event} {events : List Event}
    (opens : Yields head [opening] (body ++ '}' :: tail))
    (inside : Yields body events ('}' :: tail)) :
    Yields (head ++ body ++ ['}']) (opening :: (events ++ [.closes])) tail := by
  have closed := inside.append (.closing tail)
  have opens : Yields head [opening] (body ++ ['}'] ++ tail) := by
    rwa [List.append_assoc, List.singleton_append]
  rw [List.append_assoc]
  exact opens.append closed

/-- Between a printed node and the next one stands a semicolon, or nothing. -/
def Node.separator (node : Node) (rest : List Node) : List Char :=
  if node.isDeclaration && !rest.isEmpty then [';'] else []

theorem Yields.separator (node : Node) (rest : List Node) (tail : List Char) :
    Yields (node.separator rest) [] tail := by
  unfold Node.separator
  split
  · exact .semicolon tail
  · exact .nil tail

theorem endsDeclaration_separator {node : Node} {rest : List Node} {tail : List Char}
    (isDeclaration : node.isDeclaration) (ends : endsDeclaration tail) :
    endsDeclaration (node.separator rest ++ (Node.printAll rest ++ tail)) := by
  unfold Node.separator
  rw [isDeclaration]
  cases rest with
  | nil => exact ends
  | cons first rest => exact .inr (.inl rfl)

mutual
/-- A printed node yields its events, if a declaration is followed by its end. -/
theorem yields_print : (node : Node) → node.isPrintable → (tail : List Char) →
    (node.isDeclaration → endsDeclaration tail) → Yields node.print node.events tail
  | .rule selector body location, printable, tail, _ => by
    simp only [Node.isPrintable, Bool.and_eq_true, bne_iff_ne, ne_eq] at printable
    obtain ⟨⟨clean, noAtRule⟩, inside⟩ := printable
    have body := yields_printAll body inside ('}' :: tail) (.inr (.inr rfl))
    have read := (Yields.ruleHead clean noAtRule _).block body
    simpa [Node.print, Node.events] using read
  | .block name params body location, printable, tail, _ => by
    simp only [Node.isPrintable, Bool.and_eq_true] at printable
    obtain ⟨⟨named, clean⟩, inside⟩ := printable
    have body := yields_printAll body inside ('}' :: tail) (.inr (.inr rfl))
    have read := (Yields.blockHead named clean _).block body
    simpa [Node.print, Node.events] using read
  | .statement name params location, printable, tail, _ => by
    simp only [Node.isPrintable, Bool.and_eq_true] at printable
    exact .statement printable.1 printable.2 tail
  | .declaration content, printable, tail, ends => Yields.declaration printable (ends rfl)
  | .comment text location, printable, tail, _ => by
    simp only [Node.isPrintable, Bool.not_eq_true'] at printable
    exact .comment printable tail

/-- The printed nodes of a block or of a whole sheet yield their events. -/
theorem yields_printAll : (nodes : List Node) → Node.allPrintable nodes → (tail : List Char) →
    endsDeclaration tail → Yields (Node.printAll nodes) (Node.eventsAll nodes) tail
  | [], _, tail, _ => .nil tail
  | first :: rest, printable, tail, ends => by
    simp only [Node.allPrintable, Bool.and_eq_true] at printable
    have behind := (Yields.separator first rest _).append
      (yields_printAll rest printable.2 tail ends)
    have node := yields_print first printable.1 (first.separator rest ++ Node.printAll rest ++ tail)
      fun isDeclaration => by
        rw [List.append_assoc]
        exact endsDeclaration_separator isDeclaration ends
    have read := node.append behind
    rw [List.nil_append, ← List.append_assoc] at read
    exact read
end

/-! ## Reading what has been printed -/

/-- A text that is read as some events as a whole is parsed to what the events build. -/
theorem Yields.unlocatedAll_parse {text : List Char} {events : List Event}
    (yields : Yields text events []) :
    Node.unlocatedAll (parse (String.ofList text)) = Node.ofEvents events := by
  obtain ⟨rest, spells, read⟩ := yields (locateText (String.ofList text)) (by
    rw [locateText, map_character_locateFrom, String.toList_ofList, List.append_nil])
  rw [List.map_eq_nil_iff.mp spells, Event.scan, List.map_nil, List.append_nil] at read
  rw [parse, Node.unlocatedAll_ofEvents, read]

/-- Reading undoes printing, up to locations. -/
theorem parse_render {nodes : Stylesheet} (printable : Node.allPrintable nodes) :
    Node.unlocatedAll (parse (render nodes)) = Node.unlocatedAll nodes :=
  (yields_printAll nodes printable [] (.inl rfl)).unlocatedAll_parse.trans
    (Node.ofEvents_eventsAll nodes)

/-- A sheet with every kind of node, and with braces where they end nothing. -/
def sampler : Stylesheet :=
  [.comment " a * / b *" .start,
    .statement "charset" "\"utf-8\"" .start,
    .block "media" "(width > 1px)"
      [.rule ".a:not([b=\"\x7b;\"])" [.declaration ⟨"color", some "red", .start⟩,
        .comment "" .start, .declaration ⟨"stray", none, .start⟩] .start,
        .declaration ⟨"", some "a:b", .start⟩, .declaration ⟨"--x", some "", .start⟩] .start,
    .rule "" [.block "" "" [] .start] .start,
    .rule "a\\;/b" [] .start]

theorem sampler_round_trips : Node.allPrintable sampler ∧
    render sampler = "/* a * / b **/@charset \"utf-8\";@media (width > 1px)\x7b" ++
      ".a:not([b=\"\x7b;\"])\x7bcolor:red;/**/stray\x7d:a:b;--x:\x7d" ++
      "\x7b@\x7b\x7d\x7da\\;/b\x7b\x7d" ∧
    Node.unlocatedAll (parse (render sampler)) = Node.unlocatedAll sampler := by
  have printable : Node.allPrintable sampler := by decide +kernel
  exact ⟨printable, by decide +kernel, parse_render printable⟩

end ScopedStyles
