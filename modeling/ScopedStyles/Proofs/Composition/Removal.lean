import ScopedStyles.Proofs.Exports.Agreement
import ScopedStyles.Proofs.Module.Declarations
import ScopedStyles.Proofs.Module.Fates
import ScopedStyles.Proofs.Selector.Verbatim

/-!
What a compiled file is free of. Rules that import, export or define values are not printed, and
neither are the compositions of a rule, which have been recorded for its owners. A composition that
no rule owns is printed with everything else.
-/

namespace ScopedStyles

open Text Compiling

/-! ## Rules that are printed -/

namespace Collect

/-- Selectors are those of a rule that was not written as `:export`. -/
def Written (heads : List Node.Head) (selectors : List AnnotatedSelector) : Prop :=
  ∃ selector, .rule selector ∈ heads ∧ trim selector ≠ ":export" ∧
    ∃ mode, annotateSelectors selector mode = .ok selectors

theorem Written.mono {heads others : List Node.Head} {selectors : List AnnotatedSelector}
    (written : Written heads selectors) (less : heads ⊆ others) : Written others selectors := by
  obtain ⟨selector, member, rest⟩ := written
  exact ⟨selector, less member, rest⟩

theorem not_rule_of_paramsMarks {frame : Frame} {name params : String}
    {selectors : List AnnotatedSelector}
    (marked : .rule selectors ∈ paramsMarks frame name params) : False := by
  unfold paramsMarks at marked
  split at marked
  · cases List.mem_singleton.mp marked
  · cases marked

mutual
/-- Marked rules stand outside keyframes, and none was written as `:export`. -/
theorem written_nodeMarks (frame : Frame) {selectors : List AnnotatedSelector} :
    (node : Node) → .rule selectors ∈ nodeMarks frame node →
      frame.inKeyframes = false ∧ Written (Node.heads false node) selectors
  | .rule selector body location => by
    rw [nodeMarks_rule]
    cases kind : ruleKind frame.mode frame.inKeyframes selector with
    | wrapper mode =>
      intro marked
      obtain ⟨outside, written⟩ := written_nodesMarks { frame with mode } body marked
      exact ⟨outside, written.mono (List.subset_cons_self _ _)⟩
    | imports _ | exports | step | refused _ =>
      exact fun marked => absurd marked List.not_mem_nil
    | ordinary own =>
      intro marked
      obtain ⟨outside, noExport, annotated⟩ := outside_of_ordinary kind
      refine ⟨outside, ?_⟩
      rcases List.mem_cons.mp marked with same | inside
      · obtain rfl := MarkedHead.rule.inj same
        exact ⟨selector, List.mem_cons_self, noExport, frame.mode, annotated⟩
      · obtain ⟨_, written⟩ := written_nodesMarks (frame.inRule own) body inside
        exact written.mono (List.subset_cons_self _ _)
  | .block name params body location => by
    unfold nodeMarks
    split
    · exact fun marked => absurd marked List.not_mem_nil
    intro marked
    have inside := (List.mem_append.mp marked).resolve_left not_rule_of_paramsMarks
    obtain ⟨outside, written⟩ := written_nodesMarks
      { frame with inKeyframes := frame.inKeyframes || Keyframes.isKeyframes name } body inside
    have outside : frame.inKeyframes = false ∧ Keyframes.isKeyframes name = false := by
      simpa using outside
    refine ⟨outside.1, ?_⟩
    rw [Node.heads, outside.2]
    exact written.mono (List.subset_append_right _ _)
  | .statement name params location => by
    unfold nodeMarks
    split
    · exact fun marked => absurd marked List.not_mem_nil
    · exact fun marked => (not_rule_of_paramsMarks marked).elim
  | .declaration _ => fun marked => absurd marked List.not_mem_nil
  | .comment .. => fun marked => absurd marked List.not_mem_nil

theorem written_nodesMarks (frame : Frame) {selectors : List AnnotatedSelector} :
    (nodes : List Node) → .rule selectors ∈ nodesMarks frame nodes →
      frame.inKeyframes = false ∧ Written (Node.headsAll false nodes) selectors
  | [] => fun marked => absurd marked List.not_mem_nil
  | first :: rest => by
    intro marked
    rcases List.mem_append.mp marked with isFirst | behind
    · obtain ⟨outside, written⟩ := written_nodeMarks frame first isFirst
      exact ⟨outside, written.mono (List.subset_append_left _ _)⟩
    · obtain ⟨outside, written⟩ := written_nodesMarks frame rest behind
      exact ⟨outside, written.mono (List.subset_append_right _ _)⟩
end

end Collect

/-! ## Compiled files -/

namespace CompiledModule

/-- What became of the records of a text in the file that it was compiled to. -/
structure Accounts (workspace : Workspace) (path : Path) (source : String)
    (compiled : CompiledModule) : Prop where
  /-- Every declaration that composes has a fate. -/
  every : (Collect.fatesAll (workspace.options.modeOf path) none (parse source)).map Prod.fst =
    Node.composing (parse source)
  /-- Those that stay are in the sheet, and no other. -/
  stays : Node.composing compiled.sheet =
    (Collect.staying (Collect.fatesAll (workspace.options.modeOf path) none (parse source))).map
      (Substitution.declaration compiled.state)
  /-- Those in a rule have been recorded for the class of each of its selectors. -/
  owned : ∀ content selectors,
    (content, .owned selectors) ∈
      Collect.fatesAll (workspace.options.modeOf path) none (parse source) →
    ∃ owners, selectors.mapM AnnotatedSelector.singleLocalClass? = some owners ∧
      ∀ owner ∈ owners, .ofDeclaration content ∈ compiled.state.compositionsOf owner
  values : Node.valueRules compiled.sheet = []
  /-- A rule that is printed as `:export` was written with a wrapper or a switch. -/
  exports : .rule ":export" ∈ Node.headsAll false compiled.sheet →
    ∃ selector, .rule selector ∈ Node.headsAll false (parse source) ∧ usesScopes selector

variable {workspace : Workspace} {path : Path} {source : String} {compiled : CompiledModule}

theorem compositionsOf_congr {state later : ModuleState} (same : state.SameDeclarations later)
    (owner : String) : later.compositionsOf owner = state.compositionsOf owner := by
  rw [ModuleState.compositionsOf, ModuleState.compositionsOf, same.compositions]

theorem ResultOf.composing_sheet (result : compiled.ResultOf workspace path source) :
    Node.composing compiled.sheet =
        (Node.composing (Collect.printedSheet (workspace.context path source) (parse source))).map
          (Substitution.declaration compiled.state) ∧
      Node.valueRules compiled.sheet = [] := by
  obtain ⟨sheet, collects, closed⟩ := result.closed
  obtain ⟨rfl, _⟩ := Collect.run_of_ok (workspace.context path source) collects
  have clear : Node.valueRules (Substitution.nodes compiled.state
      (Collect.printedSheet (workspace.context path source) (parse source))) = [] := by
    rw [Substitution.valueRules_nodes]
    exact Collect.valueRules_printedNodes _ _ rfl false (parse source)
  rw [closed]
  change Node.composing (if _ then _ else _) = _ ∧ Node.valueRules (if _ then _ else _) = []
  rw [← Substitution.composing_nodes]
  split
  · exact ⟨Node.composing_pruneAll _, Node.valueRules_pruneAll clear⟩
  · exact ⟨rfl, clear⟩

theorem ResultOf.owned (result : compiled.ResultOf workspace path source)
    {content : Declaration} {selectors : List AnnotatedSelector}
    (member : (content, .owned selectors) ∈
      Collect.fatesAll (workspace.options.modeOf path) none (parse source)) :
    ∃ owners, selectors.mapM AnnotatedSelector.singleLocalClass? = some owners ∧
      ∀ owner ∈ owners, .ofDeclaration content ∈ compiled.state.compositionsOf owner := by
  obtain ⟨sheet, collects, _⟩ := result.closed
  obtain ⟨_, settled⟩ := Collect.run_of_ok (workspace.context path source) collects
  obtain ⟨kept, _, walks, _⟩ := Collect.exists_of_bind_eq_ok
    (Prod.ext collects rfl : Collect.outcome (Collect.sheet (workspace.context path source)
      (parse source)) .empty = (.ok sheet, (workspace.collection path source).2))
  have recorded := Collect.recorded_nodes (workspace.context path source)
    ⟨workspace.options.modeOf path, false, false⟩ rfl none (parse source) walks member
  obtain ⟨owners, single, made⟩ := recorded.resolve_left fun own => by cases own.2
  refine ⟨owners, single, fun owner isOwner => ?_⟩
  have declared : .ofDeclaration content ∈
      (Collect.declaredState (workspace.context path source) (parse source)).compositionsOf owner :=
    ModuleState.mem_compositionsOf_replay.mpr (.inr (made owner isOwner))
  have kept := result.develops.sameDeclarations
  rw [Workspace.collection, settled] at kept
  have same := (ModuleState.sameDeclarations_settleLiterals _ _).trans kept
  rw [compositionsOf_congr same]
  exact declared

theorem ResultOf.exports (result : compiled.ResultOf workspace path source)
    (printed : .rule ":export" ∈ Node.headsAll false compiled.sheet) :
    ∃ selector, .rule selector ∈ Node.headsAll false (parse source) ∧ usesScopes selector := by
  obtain ⟨head, marked, renders⟩ := List.mem_map.mp (result.agrees.sublist.subset printed)
  cases head with
  | keyframes => cases renders
  | rule selectors =>
    obtain ⟨_, selector, written, other, mode, annotated⟩ :=
      Collect.written_nodesMarks _ (parse source) marked
    exact ⟨selector, written, usesScopes_of_export annotated (Node.Head.rule.inj renders) other⟩

theorem ResultOf.accounts (result : compiled.ResultOf workspace path source) :
    compiled.Accounts workspace path source where
  every := Collect.map_fst_fatesAll _ none (parse source)
  stays := by
    rw [result.composing_sheet.1]
    exact congrArg _ (Collect.composing_printedNodes (workspace.context path source)
      (workspace.options.modeOf path) false none (parse source))
  owned _ _ member := result.owned member
  values := result.composing_sheet.2
  exports := result.exports

end CompiledModule

namespace Graph

/-- What becomes of compositions when a compilation succeeds, in any graph: those that stand
directly in a rule that is scoped have been recorded for the class of each of its selectors, those
in rules of records are dropped, and all others are printed; no rule of values is printed, and
`:export` only where it was written with a wrapper or a switch. So it is with every file that the
compilation takes along. -/
theorem compositions_are_accounted_for {workspace : Workspace} {path : Path} {source : String}
    {graph after : Graph} {compiled : CompiledModule} (filed : graph.Filed)
    (succeeds : outcome (compile workspace path source) graph = (.ok compiled, after)) :
    compiled.Accounts workspace path source ∧
      ∀ other, after.slots.get? (.file other.path) = some (.finished other) →
        other.path ≠ path → graph.slots.get? (.file other.path) = none →
        ∃ text, workspace.files.read other.path = .ok text ∧
          other.Accounts workspace other.path text := by
  obtain ⟨result, _, _, others⟩ := resultOf_compiles (compiles_filing filed) succeeds
  refine ⟨result.accounts, fun other found different absent => ?_⟩
  obtain ⟨text, readable, result⟩ := others other found different absent
  exact ⟨text, readable, result.accounts⟩

/-- One composition that its rule owns, one inside a block of the rule, and an `:export` in a
wrapper. -/
def mixed : String :=
  ".b\x7b\x7d.a\x7bcomposes:b;@media print\x7bcomposes:b\x7d\x7d:global(:export)\x7bcolor:red\x7d"

theorem mixed_accounts :
    ∃ compiled after, Graph.empty.Filed ∧
      outcome (compile alone (.parse "/x.css") mixed) .empty = (.ok compiled, after) ∧
      compiled.Accounts alone (.parse "/x.css") mixed ∧
      render compiled.sheet =
        ".x_b\x7b\x7d.x_a\x7b@media print\x7bcomposes:b\x7d\x7d:export\x7bcolor:red\x7d" := by
  have prints : ((outcome (compile alone (.parse "/x.css") mixed) .empty).1.toOption.map
      fun compiled => render compiled.sheet) = some
        ".x_b\x7b\x7d.x_a\x7b@media print\x7bcomposes:b\x7d\x7d:export\x7bcolor:red\x7d" := by
    decide +kernel
  cases succeeds : outcome (compile alone (.parse "/x.css") mixed) .empty with
  | mk result after =>
    rw [succeeds] at prints
    cases result with
    | error halt => cases prints
    | ok compiled =>
      exact ⟨compiled, after, .empty, rfl, (compositions_are_accounted_for .empty succeeds).1,
        Option.some.inj prints⟩

/-- A composition in a block of its rule is printed, and nothing is recorded of it. -/
theorem nested_composition_is_printed :
    ¬ ∀ (workspace : Workspace) (path : Path) (source : String) (compiled : CompiledModule)
        (after : Graph),
      outcome (compile workspace path source) .empty = (.ok compiled, after) →
      Node.composing compiled.sheet = [] := by
  intro claim
  have runs : ((outcome (compile alone (.parse "/x.css")
      ".b\x7b\x7d.a\x7b@media print\x7bcomposes:b\x7d\x7d") .empty).1.toOption.map fun compiled =>
        ((Node.composing compiled.sheet).map Declaration.property,
          compiled.state.compositions.keys)) = some (["composes"], []) := by
    decide +kernel
  cases succeeds : outcome (compile alone (.parse "/x.css")
      ".b\x7b\x7d.a\x7b@media print\x7bcomposes:b\x7d\x7d") .empty with
  | mk result after =>
    rw [succeeds] at runs
    cases result with
    | error halt => cases runs
    | ok compiled =>
      have printed := congrArg Prod.fst (Option.some.inj runs)
      dsimp only at printed
      rw [claim _ _ _ compiled after succeeds] at printed
      cases printed

end Graph

end ScopedStyles
