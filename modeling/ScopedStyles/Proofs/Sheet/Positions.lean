import ScopedStyles.Proofs.Sheet.DocumentOrder
import ScopedStyles.Proofs.Text.Positions
import ScopedStyles.Proofs.Text.Trimming

/-!
Where the nodes of a sheet stand in its text. Reading only goes forward, and every node takes its
location from the character that it begins with; so the nodes, in document order, stand one behind
the other, and the text at the location of a node begins like the node.
-/

namespace ScopedStyles

open Text

namespace Node

/-- A text begins like a node: with the sign of an at-rule or of a comment, or with the first
character of a selector or property. Without a selector there is a brace, and without a property a
colon. -/
def Begins (text : List Char) : Node → Prop
  | .rule selector _ _ => text.head? = some (selector.toList.head?.getD '{')
  | .block .. | .statement .. => text.head? = some '@'
  | .declaration content => text.head? = some (content.property.toList.head?.getD ':')
  | .comment .. => ['/', '*'] <+: text

/-- Nodes stand in a text, one behind the other: each one at the character that gives it its
location, where the text begins like the node. -/
inductive Stand : List LocatedCharacter → List Node → Prop
  | none (text : List LocatedCharacter) : Stand text []
  | passed {first : LocatedCharacter} {rest : List LocatedCharacter} {nodes : List Node}
    (behind : Stand rest nodes) : Stand (first :: rest) nodes
  | begun {first : LocatedCharacter} {rest : List LocatedCharacter} {node : Node}
    {nodes : List Node} (located : node.location = first.location)
    (begins : node.Begins ((first :: rest).map LocatedCharacter.character))
    (behind : Stand rest nodes) : Stand (first :: rest) (node :: nodes)

theorem Stand.of_suffix {text longer : List LocatedCharacter} {nodes : List Node}
    (stand : Stand text nodes) (isSuffix : text <:+ longer) : Stand longer nodes := by
  obtain ⟨front, rfl⟩ := isSuffix
  induction front with
  | nil => exact stand
  | cons first front induction => exact .passed induction

end Node

/-! ## Reading goes forward -/

theorem Prelude.suffix_scan (region : Region) (depth : Nat) (text : List LocatedCharacter) :
    (scan region depth text).rest <:+ text := by
  induction text generalizing region depth with
  | nil => exact List.suffix_refl []
  | cons first rest induction =>
    have shorter := (induction (region.next first.character (following rest))
      (region.depthAfter depth first.character)).trans (List.suffix_cons first rest)
    unfold scan
    split
    · exact List.suffix_cons first rest
    · dsimp only
      split <;> exact shorter

theorem Event.suffix_spanComment (text : List LocatedCharacter) :
    (spanComment text).2 <:+ text := by
  induction text with
  | nil => exact List.suffix_refl []
  | cons first rest induction =>
    rw [spanComment]
    split
    · exact (List.drop_suffix 1 rest).trans (List.suffix_cons first rest)
    · exact induction.trans (List.suffix_cons first rest)

/-! ## The character that a node begins with -/

theorem head?_trimCharacters {first : Char} (visible : ¬ isBlank first) (rest : List Char) :
    (trimCharacters (first :: rest)).head? = some first := by
  have single : StartsVisible [first] := startsVisible_cons.mpr visible
  obtain ⟨kept, _, _, _, trimmed⟩ := exists_trimCharacters_append single
    (by simpa [EndsVisible, StartsVisible] using single) (by simp) rest
  rw [List.singleton_append] at trimmed
  rw [trimmed]
  rfl

theorem Declaration.begins_ofText {first : Char} {rest text : List Char} {location : Location}
    (visible : ¬ isBlank first) (starts : text.head? = some first) :
    (Node.declaration (.ofText (first :: rest) location)).Begins text := by
  rw [Node.Begins, starts, ofText]
  cases cut : cutColon .initial (first :: rest) with
  | none => simp
  | some parts =>
    obtain ⟨property, value⟩ := parts
    rw [cutColon] at cut
    split at cut
    · rename_i separates
      cases cut
      have isColon : first = ':' := by simp_all
      rw [isColon]
      rfl
    · obtain ⟨⟨before, after⟩, _, same⟩ := Option.map_eq_some_iff.mp cut
      cases same
      rw [String.toList_ofList, head?_trimCharacters visible, Option.getD_some]

/-- A prelude that no character ends at once begins with its first character. -/
theorem Prelude.read_cons {first : LocatedCharacter} {rest : List LocatedCharacter}
    (goesOn : terminator? .code 0 first.character = none)
    (noComment : Region.opensComment first.character (following rest) = false) :
    ∃ behind, (read (first :: rest)).text = first.character :: behind ∧
      (read (first :: rest)).rest <:+ rest := by
  have keeps : Region.code.keeps first.character (following rest) := by
    simp [Region.keeps, noComment]
  rw [read, scan, goesOn]
  simp only [keeps, ↓reduceIte]
  exact ⟨_, rfl, suffix_scan ..⟩

namespace Event

open Node

theorem nodesOf_append (first second : List Event) :
    nodesOf (first ++ second) = nodesOf first ++ nodesOf second :=
  List.flatMap_append

theorem nodesOf_ofAtRule (name : List Char) (prelude : Prelude) (location : Location) :
    ∃ node : Node, nodesOf (ofAtRule name prelude location) = [node] ∧ node.location = location ∧
      ∀ text : List Char, text.head? = some '@' → node.Begins text := by
  unfold ofAtRule
  split
  · exact ⟨_, rfl, rfl, fun _ => id⟩
  · exact ⟨_, rfl, rfl, fun _ => id⟩
  · exact ⟨_, rfl, rfl, fun _ => id⟩

/-- A text up to a brace or semicolon is one node, which begins with the first character. -/
theorem nodesOf_ofPrelude {prelude : Prelude} {first : Char} {behind : List Char}
    (location : Location) (visible : ¬ isBlank first) (spelled : prelude.text = first :: behind) :
    ∃ node : Node, nodesOf (ofPrelude prelude location) = [node] ∧ node.location = location ∧
      ∀ text : List Char, text.head? = some first → node.Begins text := by
  have starts := head?_trimCharacters visible behind
  obtain ⟨rest, trimmed⟩ := List.head?_eq_some_iff.mp starts
  have statement : nodesOf (ofStatement prelude.text location) =
      [.declaration (.ofText (first :: rest) location)] := by
    rw [ofStatement, spelled, trimmed]
    rfl
  have declaration (text : List Char) (same : text.head? = some first) :
      (Node.declaration (.ofText (first :: rest) location)).Begins text :=
    Declaration.begins_ofText visible same
  have located : (Node.declaration (.ofText (first :: rest) location)).location = location := by
    unfold Declaration.ofText
    split <;> rfl
  unfold ofPrelude
  split
  · refine ⟨.rule _ [] location, rfl, rfl, fun text same => ?_⟩
    rw [Begins, String.toList_ofList, spelled, starts, Option.getD_some, same]
  · refine ⟨_, ?_, located, declaration⟩
    rw [nodesOf_append, statement]
    rfl
  · exact ⟨_, statement, located, declaration⟩

theorem stand_scan (text : List LocatedCharacter) : Stand text (nodesOf (scan text)) := by
  fun_induction scan text with
  | case1 => exact .none []
  | case2 first rest passes induction => exact .passed induction
  | case3 first rest _ closes induction => exact .passed induction
  | case4 first rest _ _ opens span induction =>
    obtain ⟨isSlash, isStar⟩ : first.character = '/' ∧ Prelude.following rest = some '*' := by
      simpa [Region.opensComment] using opens
    have forward := (suffix_spanComment (rest.drop 1)).trans (List.drop_suffix 1 rest)
    refine .begun rfl ?_ (induction.of_suffix forward)
    obtain ⟨star, inside, rfl⟩ : ∃ star inside, rest = star :: inside :=
      List.exists_cons_of_ne_nil fun nothing => by simp [nothing, Prelude.following] at isStar
    have isStar : star.character = '*' := by simpa [Prelude.following] using isStar
    change ['/', '*'] <+: first.character :: star.character :: _
    rw [isSlash, isStar]
    exact List.prefix_append ['/', '*'] _
  | case5 first rest _ _ _ isAtRule prelude induction =>
    obtain ⟨node, single, located, begins⟩ :=
      nodesOf_ofAtRule (nameOf rest) prelude first.location
    have forward := (Prelude.suffix_scan .code 0 (afterName rest)).trans (List.dropWhile_suffix _)
    rw [nodesOf_append, single]
    exact .begun located (begins _ (by simp [isAtRule])) (induction.of_suffix forward)
  | case6 first rest passes noClosing noComment noAtRule prelude induction =>
    obtain ⟨visible, noSemicolon⟩ : ¬ isBlank first.character ∧ first.character ≠ ';' := by
      simpa using passes
    cases ends : Prelude.terminator? .code 0 first.character with
    | none =>
      obtain ⟨behind, spelled, forward⟩ := Prelude.read_cons ends (by simpa using noComment)
      obtain ⟨node, single, located, begins⟩ := nodesOf_ofPrelude first.location visible spelled
      rw [nodesOf_append, single]
      exact .begun located (begins _ rfl) (induction.of_suffix forward)
    | some terminator =>
      -- Of the characters that end a prelude, only an opening brace is left.
      obtain ⟨opens, rfl⟩ : first.character = '{' ∧ .opening = terminator := by
        simpa [Prelude.terminator?, noSemicolon, noClosing] using ends
      have read : prelude = ⟨[], .opening, rest⟩ := by
        rw [show prelude = Prelude.read (first :: rest) from rfl, Prelude.read, Prelude.scan, ends]
      have begins : (Node.rule (String.ofList (trimCharacters [])) [] first.location).Begins
          ((first :: rest).map LocatedCharacter.character) := congrArg some opens
      rw [read] at induction ⊢
      exact .begun rfl begins induction

end Event

/-! ## Positions in the source -/

namespace Node

/-- Nodes that stand in a text have increasing offsets, and each stands behind a part of the text
that has its location behind it. -/
theorem Stand.located {before text : List Char} {nodes : List Node}
    (stand : Stand (locateFrom (Location.behind before) text) nodes) :
    nodes.Pairwise (fun node later => node.location.offset < later.location.offset) ∧
      ∀ node ∈ nodes, ∃ front rest, text = front ++ rest ∧ node.Begins rest ∧
        node.location = Location.behind (before ++ front) := by
  induction text generalizing before nodes with
  | nil =>
    cases stand
    exact ⟨.nil, nofun⟩
  | cons first text induction =>
    rw [locateFrom, ← Location.behind_concat] at stand
    have later {nodes : List Node}
        (behind : Stand (locateFrom (Location.behind (before ++ [first])) text) nodes) :
        ∀ node ∈ nodes, ∃ front rest, first :: text = (first :: front) ++ rest ∧
          node.Begins rest ∧ node.location = Location.behind (before ++ first :: front) := by
      intro node member
      obtain ⟨front, rest, whole, begins, located⟩ := (induction behind).2 node member
      exact ⟨front, rest, by rw [whole]; rfl, begins, by simpa using located⟩
    cases stand with
    | none => exact ⟨.nil, nofun⟩
    | passed behind =>
      refine ⟨(induction behind).1, fun node member => ?_⟩
      obtain ⟨front, rest, found⟩ := later behind node member
      exact ⟨first :: front, rest, found⟩
    | @begun _ _ node nodes located begins behind =>
      rw [List.map_cons, map_character_locateFrom] at begins
      constructor
      · refine List.pairwise_cons.mpr ⟨fun other member => ?_, (induction behind).1⟩
        obtain ⟨front, _, _, _, otherLocated⟩ := later behind other member
        have beyond := Location.offset_lt_after (Location.behind before) first
        rw [located, otherLocated, Location.behind_append_cons]
        exact Nat.lt_of_lt_of_le beyond (Location.offset_le_foldl_after _ front)
      · intro other member
        rcases List.mem_cons.mp member with rfl | member
        · exact ⟨[], first :: text, rfl, begins, by rw [located, List.append_nil]⟩
        · obtain ⟨front, rest, found⟩ := later behind other member
          exact ⟨first :: front, rest, found⟩

theorem Begins.ne_nil {text : List Char} {node : Node} (begins : node.Begins text) :
    text ≠ [] := by
  rintro rfl
  cases node <;> simp [Begins] at begins

theorem location_bare (node : Node) : node.bare.location = node.location := by
  cases node <;> rfl

theorem begins_bare {node : Node} {text : List Char} :
    node.bare.Begins text ↔ node.Begins text := by
  cases node <;> rfl

/-- A node stands between the text before it and the rest of the source, which begins like the node:
its location counts the bytes and lines of the text before it and the characters of its last line,
and is what looking up the offset finds. -/
structure StandsBetween (before rest : String) (node : Node) : Prop where
  begins : node.Begins rest.toList
  offset : node.location.offset = before.utf8ByteSize
  line : node.location.line = before.toList.count '\n' + 1
  column : node.location.column = (before.toList.reverse.takeWhile (· ≠ '\n')).length + 1
  found : node.location = .ofOffset (before ++ rest) before.utf8ByteSize

/-- The locations of nodes are faithful. -/
theorem nodes_stand_where_they_say (source : String) :
    (preorderAll (parse source)).Pairwise
        (fun node later => node.location.offset < later.location.offset) ∧
      ∀ node ∈ preorderAll (parse source), ∃ before rest,
        source = before ++ rest ∧ rest ≠ "" ∧ node.StandsBetween before rest := by
  have stand : Stand (locateFrom (Location.behind []) source.toList) (outline (parse source)) := by
    rw [outline_parse]
    exact Event.stand_scan (locateText source)
  obtain ⟨increasing, each⟩ := stand.located
  constructor
  · simpa [outline, List.pairwise_map, location_bare] using increasing
  · intro node member
    obtain ⟨before, rest, whole, begins, located⟩ := each node.bare (List.mem_map_of_mem member)
    rw [location_bare, List.nil_append] at located
    rw [begins_bare] at begins
    have source_eq : source = String.ofList before ++ String.ofList rest := by
      rw [← String.ofList_append, ← whole, String.ofList_toList]
    refine ⟨String.ofList before, String.ofList rest, source_eq, ?_, ?_⟩
    · intro empty
      exact begins.ne_nil (by simpa using congrArg String.toList empty)
    · constructor
      · rwa [String.toList_ofList]
      · rw [located, Location.offset_behind]
      · rw [located, Location.line_behind, String.toList_ofList]
      · rw [located, Location.column_behind, String.toList_ofList]
      · rw [located, ← String.ofList_append, ← Location.offset_behind, Location.ofOffset_behind]

/-- A stray brace, a property that is missing, and a comment that is not ended. -/
theorem stray_text_stands_where_it_says :
    (preorderAll (parse "\x7dé\x7b\n :ü\x7d /*")).map location =
        [⟨1, 1, 2⟩, ⟨6, 2, 2⟩, ⟨11, 2, 6⟩] ∧
      ∃ node ∈ preorderAll (parse "\x7dé\x7b\n :ü\x7d /*"), node.location.offset = 6 ∧
        ∃ before rest, "\x7dé\x7b\n :ü\x7d /*" = before ++ rest ∧ rest ≠ "" ∧
          node.StandsBetween before rest := by
  have locations : (preorderAll (parse "\x7dé\x7b\n :ü\x7d /*")).map location =
      [⟨1, 1, 2⟩, ⟨6, 2, 2⟩, ⟨11, 2, 6⟩] := by decide +kernel
  have second : (⟨6, 2, 2⟩ : Location) ∈
      (preorderAll (parse "\x7dé\x7b\n :ü\x7d /*")).map location := by
    simp [locations]
  obtain ⟨node, member, located⟩ := List.mem_map.mp second
  exact ⟨locations, node, member, by rw [located], (nodes_stand_where_they_say _).2 node member⟩

end Node

end ScopedStyles
