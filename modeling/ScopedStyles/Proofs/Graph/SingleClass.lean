import ScopedStyles.Proofs.Graph.Accounting
import ScopedStyles.Proofs.Graph.Running
import ScopedStyles.Proofs.Selector.SingleClass
import ScopedStyles.Proofs.Sheet.RoundTrip

/-!
The life of one class name. A sheet with one class, spelled so that it can stand in a selector, is
read, scoped, compiled and printed; at the end stand the name itself in the table, and the spelling
of its scoped name in the sheet.
-/

namespace ScopedStyles

open Text Identifier Compiling

/-! ## Reading -/

/-- A sheet with one declaration for one class. -/
def classSheet (name : String) : String :=
  classSelector name ++ "\x7bcolor:red\x7d"

def paint (location : Location) : Declaration :=
  ⟨"color", some "red", location⟩

theorem isComposing_paint (location : Location) :
    Composition.isComposing (paint location) = false := by
  change (lowerAscii (trim "color") == "composes" || lowerAscii (trim "color") == "compose-with") =
    false
  decide +kernel

/-- The sheet is read as the rule that it spells, whose selector is trimmed. -/
theorem parse_classSheet (name : String) :
    ∃ inside outside, parse (classSheet name) =
      [.rule (trim (classSelector name)) [.declaration (paint inside)] outside] := by
  have bland : Bland (classSelector name).toList := by
    rw [toList_classSelector]
    exact .plain (by decide) (spells_encode name.toList).bland
  have front : (classSelector name).toList.head? = some '.' := by rw [toList_classSelector]; rfl
  have head := Yields.trimmedHead bland.isClosed_braces (by rw [front]; decide)
    (by rw [front]; decide) (by rw [toList_classSelector]; exact List.cons_ne_nil _ _)
  have body : Yields (Node.printDeclaration (paint .start)) [.leaf (.declaration (paint .start))]
      ['}'] := Yields.declaration (by decide) (.inr (.inr rfl))
  have whole := (head _).block body
  have spells : classSheet name = String.ofList ((classSelector name).toList ++ ['{'] ++
      Node.printDeclaration (paint .start) ++ ['}']) := by
    refine String.toList_inj.mp ?_
    rw [classSheet, String.toList_append, String.toList_ofList]
    simp [paint, Node.printDeclaration]
  have parsed := whole.unlocatedAll_parse
  rw [← spells] at parsed
  obtain ⟨rule, isRule, sameRule⟩ := Node.eq_singleton_of_unlocatedAll parsed
  obtain ⟨nodes, outside, rfl, sameBody⟩ := Node.eq_rule_of_unlocated sameRule
  obtain ⟨node, rfl, sameNode⟩ := Node.eq_singleton_of_unlocatedAll sameBody
  obtain ⟨inside, rfl⟩ := Node.eq_declaration_of_unlocated (paint .start) sameNode
  exact ⟨inside, outside, isRule⟩

/-! ## Collecting -/

namespace Collect

variable {context : FileContext} {name selector : String} {content : Declaration}
  {location : Location}

theorem ruleKind_of_isClass (isClass : IsClass name selector) {mode : Mode}
    {selectors : List AnnotatedSelector}
    (annotated : annotateSelectors selector mode = .ok selectors) :
    ruleKind mode false selector = .ordinary selectors := by
  obtain ⟨first, rest, spelled, -, -⟩ := isClass.spelled
  have trimmed := isClass.trimmed
  have lower : (lowerAscii selector).toList.head? = some '.' := by
    simp [lowerAscii, spelled]
  have noBlock : Mode.ofBlockSelector? selector = none := by
    rw [Mode.ofBlockSelector?, trimmed]
    rw [if_neg (by intro equal; rw [equal] at lower; cases lower),
      if_neg (by intro equal; rw [equal] at lower; cases lower)]
  have noImport : importSpecifier? selector = none := by
    have same : trimCharacters selector.toList = selector.toList := by
      rw [← toList_trim, trimmed]
    rw [importSpecifier?, same, spelled]
    rfl
  have noExport : trim selector ≠ ":export" := by
    rw [trimmed]
    intro equal
    rw [equal] at spelled
    cases spelled
  simp only [ruleKind, noBlock, noImport, noExport, annotated, Bool.false_eq_true, ↓reduceIte]

theorem run_class (isClass : IsClass name selector) (isLocal : context.mode.isLocal)
    (plain : Composition.isComposing content = false) :
    run context [.rule selector [.declaration content] location] =
      (.ok [.rule (trim (classSelector (context.scopedName name))) [.declaration content] location],
        ⟨ModuleState.empty.declareLocal name (context.scopedName name), []⟩) := by
  obtain ⟨spelling, annotated⟩ := annotateSelectors_of_isClass isClass context.mode
  rw [isLocal] at annotated
  have kind := ruleKind_of_isClass isClass annotated
  have rendered : renderSelectors context.scopedName [⟨[.name .dot name spelling true]⟩] =
      trim (classSelector (context.scopedName name)) := by
    have joined : String.join [Selector.Segment.render context.scopedName
        (.name .dot name spelling true)] = classSelector (context.scopedName name) := by
      simp [Selector.Segment.render, classSelector, Selector.Sigil.character, String.join]
    rw [← joined]
    rfl
  have composing : (declarationsOf [.declaration content]).filter Composition.isComposing = [] := by
    simp [declarationsOf, Node.declaration?, plain]
  have hasLocal : ([⟨[.name .dot name spelling true]⟩] : List AnnotatedSelector).all
      AnnotatedSelector.hasLocal = true := rfl
  rw [run, sheet, nodes, node_rule, kind]
  simp only [ordinaryRule, nodes, node, scopeRule, annotated, recordCompositions, composing, plain,
    hasLocal, Bool.not_true, Bool.and_false, Bool.false_eq_true, ↓reduceIte]
  rw [← rendered]
  rfl

end Collect

/-! ## Compiling -/

def classState (name generated : String) : ModuleState :=
  .declareLocal .empty name generated

variable {workspace : Workspace} {path : Path} {name : String}

theorem outcome_resolve_classState (calls : Calls) {graph : Graph} {site : Site}
    {generated : String} (state : graph.stateAt site = classState name generated) :
    outcome (Resolution.resolve calls site) graph =
      (.ok (), graph.setState site (classState name generated)) := by
  have settled : (classState name generated).settleLiterals [] = classState name generated := rfl
  unfold Resolution.resolve
  rw [outcome_bind, outcome_stateAt]
  dsimp only
  rw [state, outcome_bind]
  change outcome (Compiling.update site (ModuleState.settleLiterals []) >>= fun _ => _) graph = _
  rw [outcome_bind, outcome_update, state, settled]
  dsimp only
  rw [outcome_bind, outcome_stateAt]
  dsimp only
  rw [Graph.stateAt_setState]
  rfl

/-- A file that declares a class and nothing else is closed as it is opened. -/
theorem outcome_compile_classState {source generated : String} {sheet : Stylesheet}
    (collected : workspace.collection path source = (.ok sheet, ⟨classState name generated, []⟩))
    (graph : Graph) :
    outcome (Graph.compile workspace path source) graph =
      (.ok (workspace.closed path (classState name generated) sheet),
        ((graph.opening workspace path source).setState (.file path)
          (classState name generated)).closing workspace path sheet) := by
  have opened : (graph.opening workspace path source).stateAt (.file path) =
      classState name generated := by
    rw [Graph.stateAt_opening, collected]
  rw [Graph.compile, Compilation.outcome_compile, collected]
  dsimp only
  rw [Compilation.outcome_resolve, outcome_resolve_classState _ opened]
  dsimp only
  rw [Graph.stateAt_setState]

theorem value_classState (generated : String) (location : Location) :
    Substitution.value (classState name generated) (paint location) "red" = "red" := by
  have noKeyframes : (classState name generated).keyframes.isEmpty = true := rfl
  have noSymbols : (classState name generated).symbols = .empty := rfl
  rw [Substitution.value, noKeyframes, noSymbols]
  simp only [Bool.not_true, Bool.and_false, Bool.false_eq_true, ↓reduceIte]
  decide +kernel

theorem closed_classState (generated selector : String) (inside outside : Location) :
    workspace.closed path (classState name generated)
        [.rule selector [.declaration (paint inside)] outside] =
      ⟨path, classState name generated,
        [.rule selector [.declaration (paint inside)] outside]⟩ := by
  have substituted : Substitution.nodes (classState name generated)
      [.rule selector [.declaration (paint inside)] outside] =
        [.rule selector [.declaration (paint inside)] outside] := by
    have same : Substitution.value (classState name generated) (paint inside) "red" = "red" :=
      value_classState generated inside
    simp only [Substitution.nodes, Substitution.node, paint, Option.map_some] at same ⊢
    rw [same]
  rw [Workspace.closed, substituted]
  simp [Node.pruneAll, Node.prune]

/-- The scoped name of the class in its own sheet. -/
def Workspace.scopedClass (workspace : Workspace) (path : Path) (name : String) : String :=
  (workspace.context path (classSheet name)).scopedName name

theorem collection_classSheet (named : name ≠ "") (noNul : '\x00' ∉ name.toList)
    (firm : endsFirmly name.toList) (isLocal : (workspace.options.modeOf path).isLocal) :
    ∃ inside outside, workspace.collection path (classSheet name) =
      (.ok [.rule (trim (classSelector (workspace.scopedClass path name)))
          [.declaration (paint inside)] outside],
        ⟨classState name (workspace.scopedClass path name), []⟩) := by
  obtain ⟨inside, outside, parsed⟩ := parse_classSheet name
  refine ⟨inside, outside, ?_⟩
  rw [Workspace.collection, parsed]
  exact Collect.run_class (isClass_trim named noNul firm) isLocal (isComposing_paint inside)

/-- Every class name survives, if it does not end in white space that is spelled by itself: where
the mode is local, the sheet with the class is compiled to the rule of its scoped name, and the
table holds the name itself with that scoped name, and nothing else. The selector of the rule is the
spelling of the scoped name but for the space behind a code at its end, if the scoped name does not
end in such white space either. -/
theorem class_names_survive (workspace : Workspace) (path : Path) {name : String}
    (named : name ≠ "") (noNul : '\x00' ∉ name.toList) (firm : endsFirmly name.toList)
    (isLocal : (workspace.options.modeOf path).isLocal) :
    ∃ file inside outside,
      (Processing.run workspace path (classSheet name)).outcome = .ok file ∧
      file.tokens.toList = [(name, .plain .localName (workspace.scopedClass path name))] ∧
      (Processing.run workspace path (classSheet name)).graph.finished =
        [⟨path, ⟨file.tokens, .empty, [], [], [], .empty, .empty, .empty, .empty⟩,
          [.rule (trim (classSelector (workspace.scopedClass path name)))
            [.declaration (paint inside)] outside]⟩] ∧
      (endsFirmly (workspace.scopedClass path name).toList →
        classSelector (workspace.scopedClass path name) =
            trim (classSelector (workspace.scopedClass path name)) ∨
          classSelector (workspace.scopedClass path name) =
            trim (classSelector (workspace.scopedClass path name)) ++ " ") := by
  obtain ⟨inside, outside, collected⟩ := collection_classSheet named noNul firm isLocal
  have compiled := outcome_compile_classState collected .empty
  rw [closed_classState] at compiled
  have succeeds : (Processing.run workspace path (classSheet name)).outcome =
      .ok (Processing.summarize workspace.options
        (Processing.run workspace path (classSheet name)).graph
        ⟨path, classState name (workspace.scopedClass path name),
          [.rule (trim (classSelector (workspace.scopedClass path name)))
            [.declaration (paint inside)] outside]⟩) := by
    rw [Processing.run_eq, compiled]
    rfl
  refine ⟨_, inside, outside, succeeds, rfl, ?_, trim_classSelector⟩
  rw [Processing.run_eq, compiled]
  change (Graph.empty.opening workspace path (classSheet name)).finished ++ [_] = _
  rw [Graph.finished_opening, Graph.stateAt_setState, closed_classState]
  rfl

/-- Files whose scoped names say where they come from. -/
def signed : Workspace where
  options :=
    { Options.standard with namePattern := .custom fun name path _ => path ++ "/" ++ name }
  files := .ofList .top []
  resolver := .nearest

/-- A name that begins with a digit and ends in a tab stands in its sheet as `\32 \9`. -/
theorem tabbed_name_survives :
    "2\t" ≠ "" ∧ '\x00' ∉ "2\t".toList ∧ endsFirmly "2\t".toList ∧
      (signed.options.modeOf (.parse "/a.css")).isLocal ∧
      trim (classSelector "2\t") = ".\\32 \\9" ∧
      ∃ file, (Processing.run signed (.parse "/a.css") (classSheet "2\t")).outcome = .ok file ∧
        file.tokens.toList = [("2\t", .plain .localName "a.css/2\t")] := by
  have named : "2\t" ≠ "" := by decide
  have noNul : '\x00' ∉ "2\t".toList := by decide
  have firm : endsFirmly "2\t".toList := by decide
  have isLocal : (signed.options.modeOf (.parse "/a.css")).isLocal := by decide +kernel
  have generated : signed.scopedClass (.parse "/a.css") "2\t" = "a.css/2\t" := by decide +kernel
  obtain ⟨file, _, _, succeeds, tokens, _⟩ :=
    class_names_survive signed (.parse "/a.css") named noNul firm isLocal
  rw [generated] at tokens
  exact ⟨named, noNul, firm, isLocal, by decide +kernel, file, succeeds, tokens⟩

/-- The space of an escape at the end of a selector is trimmed off, and with it the end of the
name. -/
theorem blank_name_is_cut :
    ¬ ∀ (workspace : Workspace) (path : Path) (name : String), name ≠ "" → '\x00' ∉ name.toList →
      (workspace.options.modeOf path).isLocal →
      ∃ file, (Processing.run workspace path (classSheet name)).outcome = .ok file ∧
        file.tokens.keys = [name] := by
  intro claim
  have keys : (Processing.run signed (.parse "/a.css")
      (classSheet "a ")).outcome.toOption.map (·.tokens.keys) = some ["a\uFFFD"] := by
    decide +kernel
  obtain ⟨file, succeeds, whole⟩ :=
    claim signed (.parse "/a.css") "a " (by decide) (by decide) (by decide +kernel)
  rw [succeeds] at keys
  have cut : file.tokens.keys = ["a\uFFFD"] := Option.some.inj keys
  rw [whole] at cut
  exact absurd cut (by decide)

end ScopedStyles
