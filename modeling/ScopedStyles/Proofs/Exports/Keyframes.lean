import ScopedStyles.Proofs.Exports.Agreement
import ScopedStyles.Proofs.Module.Courses
import ScopedStyles.Proofs.Module.Declarations
import ScopedStyles.Proofs.Module.Substitution

/-!
Keyframes and their uses are renamed together. The header of keyframes is scoped when the first
pass meets it, a use when everything has been settled and substituted; a plain name that is read as
the header is found in the value of an animation wherever it stands as a whole.
-/

namespace ScopedStyles

open Compiling Text

/-! ## Headers -/

/-- A plain name that is not trimmed is scoped where names are local. -/
theorem Keyframes.readHeader_of_plain {name : String} (plain : isIdentifier name)
    (trimmed : trim name = name) : readHeader name true = ⟨name, true⟩ := by
  have isWord := Mention.isWord_of_isPlain plain
  have noWrapper (opening : String) : inWrapper? opening name.toList = none := by
    rw [inWrapper?, if_neg]
    rintro ⟨_, closes⟩
    have continues := isWord.continues _ (List.mem_of_getLast? closes)
    exact absurd continues (by decide)
  have unquoted : isQuoted name = false := by
    have untrimmed : trimCharacters name.toList = name.toList := by
      rw [← toList_trim, trimmed]
    rw [isQuoted, untrimmed, betweenQuotes?.eq_def]
    cases letters : name.toList with
    | nil => rfl
    | cons first rest =>
      have continues := isWord.continues first (letters ▸ List.mem_cons_self)
      have noQuote : isQuote first = false := by
        cases quotes : isQuote first with
        | false => rfl
        | true =>
          rw [(Mention.isCharacter_of_isQuote quotes).1] at continues
          cases continues
      simp [noQuote]
  rw [readHeader, trimmed, noWrapper, noWrapper, unquoted]
  rfl

namespace CompiledModule

/-- The keyframes of this name, and the animations of a text that use them, are printed under the
scoped name. -/
structure ScopesKeyframes (workspace : Workspace) (path : Path) (source : String)
    (compiled : CompiledModule) (name : String) : Prop where
  /-- Where names are local, a header that is spelled as the name is marked with it. -/
  read : trim name = name → Keyframes.readHeader name true = ⟨name, true⟩
  /-- The headers of keyframes are printed as they were marked, and all of them are. -/
  headers : (Node.headsAll false compiled.sheet).filter Node.Head.isKeyframes =
    ((Collect.sheetMarks (workspace.context path source) (parse source)).map
      (Collect.MarkedHead.render (workspace.context path source).scopedName)).filter
        Node.Head.isKeyframes
  /-- Those with the name are printed with the scoped name. -/
  header : ∀ atRule, .keyframes atRule ⟨name, true⟩ ∈
      Collect.sheetMarks (workspace.context path source) (parse source) →
    .keyframes atRule ((workspace.context path source).scopedName name) ∈
      Node.headsAll false compiled.sheet
  /-- In an animation that stays, the scoped name stands where the name did. -/
  uses : ∀ placed ∈ Node.leavesAll (parse source), ∀ around content front back,
    Collect.course (workspace.context path source) ⟨workspace.options.modeOf path, false, false⟩
      none placed.leaf placed.around = .stays around →
    placed.leaf = .declaration content → Keyframes.isAnimation content.name →
    content.value = some (front ++ name ++ back) →
    Mention.Stands front.toList name.toList back.toList →
    (∀ word ∈ mentionedNames front, ∀ text, compiled.state.symbols.get? word = some text →
      Mention.Closed text.toList) →
    ⟨around.map (Substitution.enclosure compiled.state),
        .declaration { content with
          value := some (Substitution.value compiled.state content front ++
            (workspace.context path source).scopedName name ++
            Substitution.value compiled.state content back) }⟩ ∈
      Node.leavesAll compiled.sheet

variable {workspace : Workspace} {path : Path} {source : String} {compiled : CompiledModule}

theorem ResultOf.headers (result : compiled.ResultOf workspace path source) :
    (Node.headsAll false compiled.sheet).filter Node.Head.isKeyframes =
      ((Collect.sheetMarks (workspace.context path source) (parse source)).map
        (Collect.MarkedHead.render (workspace.context path source).scopedName)).filter
          Node.Head.isKeyframes := by
  rcases result.agrees.printed with ⟨sheet, heads, same⟩
  rw [same, ← heads]
  split
  · exact Node.keyframes_pruneAll false sheet
  · rfl

/-- A compiled sheet has the leaves that were kept, after substitution. -/
theorem ResultOf.leaves (result : compiled.ResultOf workspace path source) :
    Node.leavesAll compiled.sheet =
      ((Node.leavesAll (parse source)).filterMap
        (Collect.keptLeaf? (workspace.context path source)
          ⟨workspace.options.modeOf path, false, false⟩ none)).map
        (Substitution.placedLeaf compiled.state) := by
  rcases result.closed with ⟨sheet, collects, closed⟩
  rcases Collect.run_of_ok (workspace.context path source) collects with ⟨printed, _⟩
  have kept : Node.leavesAll sheet = (Node.leavesAll (parse source)).filterMap
      (Collect.keptLeaf? (workspace.context path source)
        ⟨workspace.options.modeOf path, false, false⟩ none) := by
    rw [printed]
    exact Collect.leavesAll_printedNodes _ none (parse source)
  rw [closed, ← kept, ← Substitution.leavesAll_nodes]
  change Node.leavesAll (if _ then _ else _) = _
  split
  · exact Node.leavesAll_pruneAll _
  · rfl

theorem ResultOf.keyframes (result : compiled.ResultOf workspace path source)
    {atRule name : String} (marked : .keyframes atRule ⟨name, true⟩ ∈
      Collect.sheetMarks (workspace.context path source) (parse source)) :
    compiled.state.keyframes.get? name =
      some ((workspace.context path source).scopedName name) := by
  rcases result.closed with ⟨sheet, collects, _⟩
  rcases Collect.run_of_ok (workspace.context path source) collects with ⟨_, settled⟩
  have recorded : .keyframes name ∈
      Collect.sheetRecords (workspace.context path source) (parse source) :=
    Collect.records_nodesMarks _ _ _ marked List.mem_cons_self
  have kept := result.develops.sameDeclarations
  rw [Workspace.collection, settled] at kept
  have same := (ModuleState.sameDeclarations_settleLiterals _ _).trans kept
  rw [same.keyframes, Collect.declaredState, ModuleState.get?_keyframes_replay, if_pos recorded]

theorem ResultOf.scopesKeyframes (result : compiled.ResultOf workspace path source)
    {name : String} (plain : isIdentifier name) (noKeyword : lowerAscii name ∉ Keyframes.keywords)
    (noSymbol : compiled.state.symbols.get? name = none)
    (marked : ∃ atRule, .keyframes atRule ⟨name, true⟩ ∈
      Collect.sheetMarks (workspace.context path source) (parse source)) :
    compiled.ScopesKeyframes workspace path source name where
  read := Keyframes.readHeader_of_plain plain
  headers := result.headers
  header := by
    intro atRule marked
    have printed : .keyframes atRule ((workspace.context path source).scopedName name) ∈
        ((Collect.sheetMarks (workspace.context path source) (parse source)).map
          (Collect.MarkedHead.render (workspace.context path source).scopedName)).filter
            Node.Head.isKeyframes :=
      List.mem_filter.mpr ⟨List.mem_map.mpr ⟨_, marked, rfl⟩, rfl⟩
    rw [← result.headers] at printed
    exact (List.mem_filter.mp printed).1
  uses := by
    intro placed member around content front back stays isLeaf animates spelled stands closed
    rcases marked with ⟨atRule, marked⟩
    rw [result.leaves]
    apply List.mem_map.mpr
    refine ⟨⟨around, placed.leaf⟩, List.mem_filterMap.mpr ⟨placed, member, ?_⟩, ?_⟩
    · change (Collect.course _ _ none placed.leaf placed.around).around?.map _ = _
      rw [stays]
      rfl
    · have value := Substitution.value_of_stands animates stands plain noKeyword noSymbol
        (result.keyframes marked) closed
      rw [Substitution.placedLeaf, isLeaf, Substitution.leaf, Substitution.declaration, spelled,
        Option.map_some, value]

end CompiledModule

namespace Graph

/-- When a compilation succeeds, in any graph, a local name of keyframes that is a plain identifier,
no word of animations and nothing that is substituted, is printed as the scoped name in every header
and wherever the value of an animation mentions it as a whole. -/
theorem keyframes_are_scoped_with_uses {workspace : Workspace} {path : Path} {source : String}
    {graph after : Graph} {compiled : CompiledModule} {name : String} (filed : graph.Filed)
    (succeeds : outcome (compile workspace path source) graph = (.ok compiled, after))
    (plain : isIdentifier name) (noKeyword : lowerAscii name ∉ Keyframes.keywords)
    (noSymbol : compiled.state.symbols.get? name = none)
    (marked : ∃ atRule, .keyframes atRule ⟨name, true⟩ ∈
      Collect.sheetMarks (workspace.context path source) (parse source)) :
    compiled.ScopesKeyframes workspace path source name :=
  (resultOf_compiles (compiles_filing filed) succeeds).1.scopesKeyframes plain noKeyword noSymbol
    marked

/-- Keyframes, and an animation that uses them behind a value, a string and an address. -/
def animated : String :=
  "@value s:2s;@keyframes k\x7b\x7d.c\x7banimation:s 'k' url(k) k\x7d"

theorem animated_scopes_keyframes :
    ∃ compiled after, Graph.empty.Filed ∧
      outcome (compile alone (.parse "/x.css") animated) .empty = (.ok compiled, after) ∧
      isIdentifier "k" ∧ lowerAscii "k" ∉ Keyframes.keywords ∧
      compiled.state.symbols.get? "k" = none ∧
      (∃ atRule, .keyframes atRule ⟨"k", true⟩ ∈
        Collect.sheetMarks (alone.context (.parse "/x.css") animated) (parse animated)) ∧
      compiled.ScopesKeyframes alone (.parse "/x.css") animated "k" ∧
      render compiled.sheet =
        "@keyframes x_k\x7b\x7d.x_c\x7banimation:2s 'k' url(k) x_k\x7d" := by
  have plain : isIdentifier "k" := by decide
  have noKeyword : lowerAscii "k" ∉ Keyframes.keywords := by decide
  have marked : ∃ atRule, .keyframes atRule ⟨"k", true⟩ ∈
      Collect.sheetMarks (alone.context (.parse "/x.css") animated) (parse animated) :=
    ⟨"keyframes", by decide +kernel⟩
  have runs : ((outcome (compile alone (.parse "/x.css") animated) .empty).1.toOption.map
      fun compiled => (compiled.state.symbols.get? "k", render compiled.sheet)) =
        some (none, "@keyframes x_k\x7b\x7d.x_c\x7banimation:2s 'k' url(k) x_k\x7d") := by
    decide +kernel
  cases succeeds : outcome (compile alone (.parse "/x.css") animated) .empty with
  | mk result after =>
    rw [succeeds] at runs
    cases result with
    | error halt => cases runs
    | ok compiled =>
      have found := Option.some.inj runs
      have noSymbol : compiled.state.symbols.get? "k" = none := congrArg Prod.fst found
      exact ⟨compiled, after, .empty, rfl, plain, noKeyword, noSymbol, marked,
        keyframes_are_scoped_with_uses .empty succeeds plain noKeyword noSymbol marked,
        congrArg Prod.snd found⟩

/-- The name of keyframes that is spelled with an escape, in the header and in an animation. -/
def escaped : String :=
  "@keyframes a\\:b\x7b\x7d.c\x7banimation:a\\:b\x7d"

/-- A name that is spelled with an escape is scoped in the header, and not in the value of an
animation. -/
theorem escaped_keyframes_are_parted :
    ¬ ∀ (workspace : Workspace) (path : Path) (source : String) (compiled : CompiledModule)
        (after : Graph),
      outcome (compile workspace path source) .empty = (.ok compiled, after) →
      ∀ atRule name, name ≠ "" → lowerAscii name ∉ Keyframes.keywords →
        compiled.state.symbols.get? (escapeIdentifier name) = none →
        .keyframes atRule ⟨escapeIdentifier name, true⟩ ∈
          Collect.sheetMarks (workspace.context path source) (parse source) →
        ∀ placed ∈ Node.leavesAll (parse source), ∀ content,
          placed.leaf = .declaration content → Keyframes.isAnimation content.name →
          content.value = some (escapeIdentifier name) →
          ∃ kept ∈ Node.leavesAll compiled.sheet, kept.leaf = .declaration { content with
            value := some ((workspace.context path source).scopedName (escapeIdentifier name)) } := by
  intro claim
  have runs : (outcome (compile alone (.parse "/x.css") escaped) .empty).1.toOption.map
      (fun compiled => (compiled.state.symbols.get? "a\\:b",
        (Node.leavesAll compiled.sheet).map Node.PlacedLeaf.leaf)) =
          some (none, [.declaration ⟨"animation", some "a\\:b", ⟨20, 1, 21⟩⟩]) := by
    decide +kernel
  have source : Node.leavesAll (parse escaped) = [⟨[.rule ".c" ⟨17, 1, 18⟩],
      .declaration ⟨"animation", some "a\\:b", ⟨20, 1, 21⟩⟩⟩] := by
    decide +kernel
  have marked : .keyframes "keyframes" ⟨escapeIdentifier "a:b", true⟩ ∈
      Collect.sheetMarks (alone.context (.parse "/x.css") escaped) (parse escaped) := by
    decide +kernel
  have generated : (alone.context (.parse "/x.css") escaped).scopedName
      (escapeIdentifier "a:b") = "x_a__b" := by
    decide +kernel
  cases succeeds : outcome (compile alone (.parse "/x.css") escaped) .empty with
  | mk result after =>
    rw [succeeds] at runs
    cases result with
    | error halt => cases runs
    | ok compiled =>
      have found := Option.some.inj runs
      have leaves : (Node.leavesAll compiled.sheet).map Node.PlacedLeaf.leaf =
        [.declaration ⟨"animation", some "a\\:b", ⟨20, 1, 21⟩⟩] := congrArg Prod.snd found
      have member := source ▸ List.mem_cons_self
      rcases claim _ _ _ compiled after succeeds "keyframes" "a:b" (by decide) (by decide)
        (congrArg Prod.fst found) marked _ member _ rfl (by decide) rfl with ⟨kept, inside, isKept⟩
      have printed := List.mem_map_of_mem (f := Node.PlacedLeaf.leaf) inside
      rw [leaves, isKept, generated] at printed
      simp at printed

end Graph

end ScopedStyles
