import ScopedStyles.Proofs.Graph.Renaming
import ScopedStyles.Proofs.Graph.Running

/-!
Results with other names. The pattern that scoped names are made after decides nothing: not whether
a run fails and how, nor which files are processed in which order, nor what is exported under which
keys. It decides how scoped names are spelled, and with them the texts that take them in.
-/

namespace ScopedStyles

/-! ## Exports -/

/-- A convention under which the keys of a name depend on the name alone. -/
def Convention.IsBuiltIn : Convention → Prop
  | .custom _ => False
  | _ => True

/-- Exports with the same keys in the same order. -/
def Exports.SameKeys (exported other : Exports) : Prop :=
  exported.Alike (fun _ _ _ => True) other

namespace Exports.SameKeys

variable {exported other : Exports}

theorem insertIfNew (same : exported.SameKeys other) (key value otherValue : String) :
    SameKeys (exported.insertIfNew key value) (other.insertIfNew key otherValue) := by
  unfold OrderedMap.insertIfNew
  rw [OrderedMap.Alike.contains_eq same]
  split
  · exact same
  · exact OrderedMap.Alike.insert same trivial

theorem extend (same : exported.SameKeys other) {convention : Convention}
    (builtIn : convention.IsBuiltIn) (file : Path) (name value otherValue : String) :
    SameKeys (convention.extend file exported name value)
      (convention.extend file other name otherValue) := by
  have named : SameKeys (exported.insert name value) (other.insert name otherValue) :=
    OrderedMap.Alike.insert same trivial
  cases convention with
  | asIs => exact named
  | camelCase => exact named.insertIfNew _ _ _
  | camelCaseOnly => exact OrderedMap.Alike.insert same trivial
  | dashes => exact named.insertIfNew _ _ _
  | dashesOnly => exact OrderedMap.Alike.insert same trivial
  | custom => exact builtIn.elim

end Exports.SameKeys

theorem TokenTable.Renamed.sameKeys {variation : Variation} {table other : TokenTable}
    (renamed : table.Renamed variation other) {convention : Convention}
    (builtIn : convention.IsBuiltIn) (file : Path) :
    (Exports.ofTable table convention file).SameKeys (Exports.ofTable other convention file) := by
  refine List.rel_foldl ?_ OrderedMap.Alike.empty renamed
  rintro exported others same ⟨name, entry⟩ ⟨_, otherEntry⟩ ⟨rfl, _⟩
  exact Exports.SameKeys.extend same builtIn file _ _ _

/-! ## Results -/

namespace Project

open Compiling Processing

variable {project : Project} {pattern : NamePattern}

/-- Results of the two runs. They are made from modules that differ in names only, of the same files
in the same order. -/
structure RenamedResults (project : Project) (pattern : NamePattern) (first second : Invocation)
    (root other : CompiledModule) : Prop where
  outcome : first.outcome = .ok (summarize project.workspace.options first.graph root)
  otherOutcome : second.outcome =
    .ok (summarize (project.workspace.withPattern pattern).options second.graph other)
  renamed : project.RenamedModule pattern project.root root other
  finished : List.Forall₂ (fun compiled => project.RenamedModule pattern compiled.path compiled)
    first.graph.finished second.graph.finished
  processed : second.graph.processed = first.graph.processed
  exported :
    (Exports.ofTable other.table project.workspace.options.convention other.path).keys =
      (Exports.ofTable root.table project.workspace.options.convention root.path).keys
  sheet : Node.AlikeAll .shape
    (assemble project.workspace.options root (dependencies first.graph root.path)
      (Exports.ofTable root.table project.workspace.options.convention root.path))
    (assemble project.workspace.options other (dependencies second.graph other.path)
      (Exports.ofTable other.table project.workspace.options.convention other.path))

/-- Both runs fail for the same reason, or both come to results. -/
def SameButNames (project : Project) (pattern : NamePattern) (first second : Invocation) : Prop :=
  (∃ halt, first.outcome = .error halt ∧ second.outcome = .error halt) ∨
    ∃ root other, project.RenamedResults pattern first second root other

theorem toRule_sameShape {exported other : Exports} (same : exported.SameKeys other) :
    Node.AlikeAll .shape [exported.toRule] [other.toRule] := by
  refine .rule trivial ?_ .nil
  obtain ⟨entries⟩ := exported
  obtain ⟨others⟩ := other
  change List.Forall₂ _ entries others at same
  change Node.AlikeAll .shape (entries.map _) (others.map _)
  induction same with
  | nil => exact .nil
  | @cons entry otherEntry _ _ head _ induction =>
    obtain ⟨key, value⟩ := entry
    obtain ⟨_, otherValue⟩ := otherEntry
    obtain ⟨rfl, _⟩ := head
    exact .declaration (.some trivial) induction

theorem assemble_sameShape {options : Options} {root otherRoot : CompiledModule}
    {others otherOthers : List CompiledModule} {exported otherExported : Exports}
    (modules : project.RenamedModule pattern root.path root otherRoot)
    (dependencies : List.Forall₂
      (fun compiled => project.RenamedModule pattern compiled.path compiled) others otherOthers)
    (keys : exported.SameKeys otherExported) :
    Node.AlikeAll .shape (assemble options root others exported)
      (assemble options otherRoot otherOthers otherExported) := by
  unfold assemble
  refine Node.AlikeAll.append (Node.AlikeAll.append ?_ ?_) modules.sheet.sameShape
  · split
    · exact toRule_sameShape keys
    · exact .nil
  · split
    · exact .flatMap dependencies fun _ _ paired => paired.sheet.sameShape
    · exact .nil

theorem renamed_of_matches {modules others : List CompiledModule}
    (match_ : List.Forall₂ (fun compiled => (project.comparePatterns pattern).modules compiled.path
      compiled) modules others) :
    List.Forall₂ (fun compiled => project.RenamedModule pattern compiled.path compiled) modules
      others :=
  match_.imp fun _ _ => And.left

theorem results_of_matches {graph otherGraph : Graph} {root other : CompiledModule}
    (match_ : (project.comparePatterns pattern).Graphs graph otherGraph)
    (modules : project.RenamedModule pattern project.root root other)
    (builtIn : project.workspace.options.convention.IsBuiltIn) :
    project.RenamedResults pattern
      ⟨.ok (summarize project.workspace.options graph root), graph⟩
      ⟨.ok (summarize (project.workspace.withPattern pattern).options otherGraph other), otherGraph⟩
      root other := by
  have samePath : other.path = root.path := modules.otherPath.trans modules.path.symm
  have keys : (Exports.ofTable root.table project.workspace.options.convention root.path).SameKeys
      (Exports.ofTable other.table project.workspace.options.convention other.path) := by
    rw [samePath]
    exact modules.state.table.sameKeys builtIn root.path
  refine ⟨rfl, rfl, modules, renamed_of_matches match_.finished, match_.processed_eq,
    OrderedMap.Alike.keys_eq keys, ?_⟩
  refine assemble_sameShape (modules.path ▸ modules) ?_ keys
  rw [samePath]
  exact renamed_of_matches (match_.dependencies (project.holds_patterns pattern) root.path)

theorem run_withPattern (project : Project) (pattern : NamePattern)
    (builtIn : project.workspace.options.convention.IsBuiltIn) :
    project.SameButNames pattern (Processing.run project.workspace project.root project.source)
      (Processing.run (project.workspace.withPattern pattern) project.root project.source) := by
  have ends : (project.comparePatterns pattern).likeness.Ends
      ((project.comparePatterns pattern).modules project.root)
      (outcome (Graph.compile project.workspace project.root project.source) .empty)
      (outcome (Graph.compile (project.workspace.withPattern pattern) project.root project.source)
        .empty) := (project.holds_patterns pattern).ends
  rw [run_eq, run_eq]
  generalize outcome (Graph.compile project.workspace _ _) .empty = ending at ends ⊢
  generalize outcome (Graph.compile (project.workspace.withPattern pattern) _ _) .empty =
    otherEnding at ends ⊢
  cases ends with
  | value modules match_ => exact .inr ⟨_, _, results_of_matches match_ modules.1 builtIn⟩
  | reason => exact .inl ⟨_, rfl, rfl⟩
  | excused excuse => exact excuse.elim

/-- Reading the root first changes nothing of what the runs come to. -/
theorem SameButNames.read {first second : Invocation}
    (same : project.SameButNames pattern first second) (path : Path) :
    project.SameButNames pattern
      { first with graph.trace := first.graph.trace ++ [.read path] }
      { second with graph.trace := second.graph.trace ++ [.read path] } := by
  rcases same with fails | ⟨root, other, results⟩
  · exact .inl fails
  · have counts (graph : Graph) :
        { graph with trace := graph.trace ++ [GraphEvent.read path] }.processed =
          graph.processed := by
      simp [Graph.processed, GraphEvent.isStart]
    refine .inr ⟨root, other, { results with outcome := ?_, otherOutcome := ?_, processed := ?_ }⟩
    · rw [results.outcome, summarize, summarize, counts]
      rfl
    · rw [results.otherOutcome, summarize, summarize, counts]
      rfl
    · rw [counts, counts, results.processed]

/-- The pattern of scoped names decides nothing but names. A text or a file that is processed with
two patterns fails alike, or comes to modules of the same files in the same order, to the same count
and the same export keys, and to sheets of the same shape. The modules differ in scoped names, in
the names that owners are composed of, and in texts that hold scoped names of imported classes. -/
theorem patterns_decide_names_only (workspace : Workspace) (pattern : NamePattern)
    (builtIn : workspace.options.convention.IsBuiltIn) (path : String) :
    (∀ source,
      SameButNames ⟨workspace, workspace.files.directory.resolve path, source⟩ pattern
        (processSource workspace path source)
        (processSource (workspace.withPattern pattern) path source)) ∧
    SameButNames
      ⟨workspace, workspace.files.directory.resolve path,
        (workspace.files.read (workspace.files.directory.resolve path)).toOption.getD ""⟩
      pattern (processFile workspace path) (processFile (workspace.withPattern pattern) path) := by
  refine ⟨fun source => run_withPattern ⟨workspace, _, source⟩ pattern builtIn, ?_⟩
  unfold processFile
  rw [show (workspace.withPattern pattern).files = workspace.files from rfl]
  dsimp only
  cases workspace.files.read (workspace.files.directory.resolve path) with
  | error reason => exact .inl ⟨_, rfl, rfl⟩
  | ok source => exact (run_withPattern ⟨workspace, _, source⟩ pattern builtIn).read _

/-- A card that is composed of an imported class, whose alias stands in a value. -/
def cards : Workspace where
  options := { Options.standard with namePattern := .template "[local]" }
  files := .ofList .top [
    ("/card.css", ":import('./base.css')\x7bbox:base\x7d.card\x7bcomposes:box;content:box\x7d"),
    ("/base.css", ".base\x7bcolor:red\x7d")]
  resolver := .nearest

theorem cards_differ_in_names :
    let other := cards.withPattern (.custom fun name _ _ => "x" ++ name)
    let path := cards.files.directory.resolve "/card.css"
    (processFile cards "/card.css").handedOut.map (·.2.entries) = [[("card", "card base")]] ∧
    (processFile other "/card.css").handedOut.map (·.2.entries) = [[("card", "xcard xbase")]] ∧
    cards.options.convention.IsBuiltIn ∧
    SameButNames ⟨cards, path, (cards.files.read path).toOption.getD ""⟩
      (.custom fun name _ _ => "x" ++ name)
      (processFile cards "/card.css") (processFile other "/card.css") :=
  ⟨by decide +kernel, by decide +kernel, trivial,
    (patterns_decide_names_only cards _ trivial "/card.css").2⟩

end Project

end ScopedStyles
