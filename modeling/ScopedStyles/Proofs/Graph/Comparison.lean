import ScopedStyles.Processing
import ScopedStyles.Proofs.Foundation.Alike
import ScopedStyles.Proofs.Graph.Nesting
import ScopedStyles.Proofs.Module.Counterparts
import ScopedStyles.Proofs.Module.Delaying

/-!
A project processed twice. A comparison says which states and which modules of a file match in two
runs that see the same files. If matching states stay so in every step, and every file is collected
and closed to matching ones, then the two runs go through the same files in the same order and come
to modules that match.
-/

namespace ScopedStyles

open Compiling

/-- An event without the entries that it tells of. -/
def GraphEvent.outline : GraphEvent → GraphEvent
  | .answered path name _ => .answered path name .missing
  | event => event

/-- Files whose substituted sheets are alike are closed with sheets that are alike. -/
theorem Workspace.alikeAll_closed {workspace other : Workspace}
    (options : other.options.removeEmptyRules = workspace.options.removeEmptyRules)
    {texts : TextLikeness} {path otherPath : Path} {state otherState : ModuleState}
    {sheet otherSheet : Stylesheet}
    (substituted : Node.AlikeAll texts (Substitution.nodes state sheet)
      (Substitution.nodes otherState otherSheet)) :
    Node.AlikeAll texts (workspace.closed path state sheet).sheet
      (other.closed otherPath otherState otherSheet).sheet := by
  unfold Workspace.closed
  rw [options]
  split
  · exact substituted.pruneAll
  · exact substituted

namespace Project

variable (project : Project)

/-- A state of a file that waits for nothing but what the file declares. -/
structure Within (path : Path) (state : ModuleState) : Prop where
  imports : ∀ reference ∈ state.imports, reference ∈ (project.declared path).imports
  compositions : ∀ owner, ∀ composition ∈ state.compositionsOf owner,
    composition ∈ (project.declared path).compositionsOf owner
  valueAliases : ∀ name ∈ state.valueAliases, name ∈ (project.declared path).valueAliases
  literals : ∀ entry ∈ state.literals.entries, entry ∈ (project.declared path).literals.entries

variable {project} {path : Path} {state : ModuleState}

theorem within_empty : project.Within path .empty := ⟨nofun, nofun, nofun, nofun⟩

theorem within_declared : project.Within path (project.declared path) where
  imports _ := id
  compositions _ _ := id
  valueAliases _ := id
  literals _ := id

theorem Within.later {later : ModuleState} (within : project.Within path state)
    (same : state.SameDeclarations later)
    (literals : ∀ entry ∈ later.literals.entries, entry ∈ state.literals.entries) :
    project.Within path later where
  imports := same.imports ▸ within.imports
  compositions owner := by
    rw [ModuleState.compositionsOf, same.compositions]
    exact within.compositions owner
  valueAliases := same.valueAliases ▸ within.valueAliases
  literals entry member := within.literals entry (literals entry member)

theorem Within.settleLiterals (within : project.Within path state) (blocked : List String) :
    project.Within path (state.settleLiterals blocked) :=
  within.later (ModuleState.sameDeclarations_settleLiterals state blocked)
    fun _ => ModuleState.mem_literals_settleLiterals

theorem Within.recordImported (within : project.Within path state) (localName : String)
    (entry : TokenEntry) : project.Within path (state.recordImported localName entry) := by
  refine within.later (ModuleState.sameDeclarations_recordImported ..) fun literal member => ?_
  rwa [ModuleState.literals_recordImported] at member

theorem Within.compose (within : project.Within path state) (owner : String) (names : List String)
    (isExternal : Bool) : project.Within path (state.compose owner names isExternal) :=
  within.later ⟨rfl, rfl, rfl, rfl⟩ fun _ => id

theorem Within.release (within : project.Within path state) (name : String) :
    project.Within path (state.release name) :=
  within.later ⟨rfl, rfl, rfl, rfl⟩ fun _ => id

end Project

structure Comparison where
  project : Project
  /-- What the second run is made with. -/
  second : Workspace
  /-- The second run is bound to nothing once the first one has failed. -/
  excuses : Prop
  states : Path → ModuleState → ModuleState → Prop
  modules : Path → CompiledModule → CompiledModule → Prop
  entries : Path → String → TokenEntry → TokenEntry → Prop
  extras : Path → String → TokenEntry → Prop
  named : Path → String → List String × Bool → List String × Bool → Prop

namespace Comparison

variable (comparison : Comparison)

/-! ## Graphs that match -/

inductive Slots : Site → Slot → Slot → Prop where
  | inFlight {site : Site} {state other : ModuleState}
      (states : comparison.states site.path state other) :
      Slots site (.inFlight state) (.inFlight other)
  | finished {path : Path} {compiled other : CompiledModule}
      (modules : comparison.modules path compiled other) :
      Slots (.file path) (.finished compiled) (.finished other)

/-- Graphs of the two runs: the same files are open and finished, the same names are being
resolved, and the same has happened. -/
structure Graphs (graph other : Graph) : Prop where
  slots : graph.slots.Alike comparison.Slots other.slots
  finished : List.Forall₂ (fun compiled => comparison.modules compiled.path compiled)
    graph.finished other.finished
  resolving : other.resolving = graph.resolving
  trace : other.trace.map GraphEvent.outline = graph.trace.map GraphEvent.outline
  /-- The root is never read. -/
  rooted : graph.has comparison.project.root

def likeness : Likeness where
  alike := comparison.Graphs
  ended _ _ := True
  excused _ := comparison.excuses
  ended_of_alike _ := trivial
  states site := comparison.states site.path
  entries := comparison.entries
  extras := comparison.extras
  named site := comparison.named site.path
  sheets path := Node.AlikeAll (.renamed (comparison.project.context path).scopedName
    (comparison.second.context path (comparison.project.text path)).scopedName)
  modules := comparison.modules
  imports site reference := reference ∈ (comparison.project.declared site.path).imports
  composes site owner composition :=
    composition ∈ (comparison.project.declared site.path).compositionsOf owner
  texts path source := comparison.project.text path = source

/-- Collections of a file whose literals have been settled as far as they need no import. -/
def collections (path : Path) : Pairing Failure Collection where
  alike collection other :=
    comparison.states path collection.state other.state ∧ other.malformed = collection.malformed
  ended _ _ := True
  excused _ := comparison.excuses
  ended_of_alike _ := trivial

/-- Matching states stay so, and every file is collected and closed to matching ones. -/
structure Holds : Prop where
  resolver : comparison.second.resolver = comparison.project.workspace.resolver
  files : comparison.second.files = comparison.project.workspace.files
  keepsStates : comparison.likeness.KeepsStates comparison.project.workspace
  keepsNames : comparison.likeness.KeepsNames comparison.project.workspace
  empty : ∀ path, comparison.states path .empty .empty
  path : ∀ {path compiled other}, comparison.modules path compiled other →
    compiled.path = path ∧ other.path = path
  state : ∀ {path compiled other}, comparison.modules path compiled other →
    comparison.states path compiled.state other.state
  collects : ∀ path, (comparison.collections path).Ends (comparison.likeness.sheets path)
    (Collect.run (comparison.project.context path) (parse (comparison.project.text path)))
    (Collect.run (comparison.second.context path (comparison.project.text path))
      (parse (comparison.project.text path)))
  closes : ∀ {path state other sheet otherSheet}, comparison.states path state other →
    comparison.likeness.sheets path sheet otherSheet →
    comparison.modules path (comparison.project.workspace.closed path state sheet)
      (comparison.second.closed path other otherSheet)

namespace Graphs

variable {comparison} {graph otherGraph : Graph} {path : Path} {state : ModuleState}

theorem setState (match_ : comparison.Graphs graph otherGraph) (site : Site) {other : ModuleState}
    (states : comparison.states site.path state other) :
    comparison.Graphs (graph.setState site state) (otherGraph.setState site other) where
  slots := match_.slots.insert (.inFlight states)
  finished := match_.finished
  resolving := match_.resolving
  trace := match_.trace
  rooted := by
    rw [Graph.has, Graph.setState, OrderedMap.contains_insert, Bool.or_eq_true]
    exact .inr match_.rooted

theorem record (match_ : comparison.Graphs graph otherGraph) {event otherEvent : GraphEvent}
    (same : otherEvent.outline = event.outline) :
    comparison.Graphs (graph.record event) (otherGraph.record otherEvent) :=
  { match_ with
    trace := by
      change otherEvent.outline :: otherGraph.trace.map _ = event.outline :: graph.trace.map _
      rw [same, match_.trace] }

theorem recordAll (match_ : comparison.Graphs graph otherGraph) {items : List ι}
    (event : ι → GraphEvent) :
    comparison.Graphs (items.foldl (fun graph item => graph.record (event item)) graph)
      (items.foldl (fun graph item => graph.record (event item)) otherGraph) := by
  induction items generalizing graph otherGraph with
  | nil => exact match_
  | cons item rest induction => exact induction (match_.record rfl)

theorem enter (match_ : comparison.Graphs graph otherGraph) {entered otherEntered : Graph}
    {name : String} (enters : graph.enter path name = .ok entered)
    (otherEnters : otherGraph.enter path name = .ok otherEntered) :
    comparison.Graphs entered otherEntered := by
  unfold Graph.enter at enters otherEnters
  split at enters
  · cases enters
  split at otherEnters
  · cases otherEnters
  cases enters
  cases otherEnters
  have noted := match_.record (show (GraphEvent.entered path name).outline = _ from rfl)
  exact { noted with resolving := by rw [match_.resolving] }

theorem leave (match_ : comparison.Graphs graph otherGraph) :
    comparison.Graphs graph.leave otherGraph.leave := by
  have noted := match_.record (show GraphEvent.left.outline = _ from rfl)
  exact { noted with resolving := by rw [Graph.leave, Graph.leave, match_.resolving] }

theorem handle? (match_ : comparison.Graphs graph otherGraph) (path : Path) :
    Option.Rel (Handle.Alike (comparison.modules path) path) (graph.handle? path)
      (otherGraph.handle? path) := by
  have found := match_.slots.get? (.file path)
  unfold Graph.handle?
  generalize graph.slots.get? (.file path) = slot at found
  generalize otherGraph.slots.get? (.file path) = otherSlot at found
  cases found with
  | none => exact .none
  | some slots =>
    cases slots with
    | inFlight => exact .some .inFlight
    | finished modules => exact .some (.ready modules)

/-- A file that nobody has asked for is not the root, so its text is what is read. -/
theorem text_eq (match_ : comparison.Graphs graph otherGraph) {source : String}
    (unknown : graph.handle? path = none)
    (readable : comparison.project.workspace.files.read path = .ok source) :
    comparison.project.text path = source := by
  have different : path ≠ comparison.project.root := by
    rintro rfl
    obtain ⟨slot, found⟩ := (OrderedMap.contains_iff_get? _ _).mp match_.rooted
    rw [Graph.handle?, found] at unknown
    cases unknown
  rw [Project.text, if_neg different, readable]
  rfl

theorem processed_eq (match_ : comparison.Graphs graph otherGraph) :
    otherGraph.processed = graph.processed := by
  have counts (trace : List GraphEvent) :
      trace.countP GraphEvent.isStart =
        (trace.map GraphEvent.outline).countP GraphEvent.isStart := by
    rw [List.countP_map]
    refine List.countP_congr fun event _ => ?_
    cases event <;> rfl
  rw [Graph.processed, counts, match_.trace, ← counts, Graph.processed]

section

variable (holds : comparison.Holds)

include holds

theorem stateAt (match_ : comparison.Graphs graph otherGraph) (site : Site) :
    comparison.states site.path (graph.stateAt site) (otherGraph.stateAt site) := by
  have found := match_.slots.get? site
  unfold Graph.stateAt
  generalize graph.slots.get? site = slot at found
  generalize otherGraph.slots.get? site = otherSlot at found
  cases found with
  | none => exact holds.empty _
  | some slots =>
    cases slots with
    | inFlight states => exact states
    | finished modules => exact holds.state modules

theorem finish (match_ : comparison.Graphs graph otherGraph) {compiled other : CompiledModule}
    (modules : comparison.modules path compiled other) :
    comparison.Graphs (graph.finish compiled) (otherGraph.finish other) where
  slots := by
    unfold Graph.finish
    rw [(holds.path modules).1, (holds.path modules).2]
    exact match_.slots.insert (.finished modules)
  finished := by
    refine List.rel_append match_.finished (.cons ?_ .nil)
    rwa [(holds.path modules).1]
  resolving := match_.resolving
  trace := match_.trace
  rooted := by
    rw [Graph.has, Graph.finish, OrderedMap.contains_insert, Bool.or_eq_true]
    exact .inr match_.rooted

theorem dependencies (match_ : comparison.Graphs graph otherGraph) (root : Path) :
    List.Forall₂ (fun compiled => comparison.modules compiled.path compiled)
      (Processing.dependencies graph root) (Processing.dependencies otherGraph root) := by
  refine List.rel_filter ?_ match_.finished
  intro compiled otherCompiled modules
  simp only [(holds.path modules).2]

end

end Graphs

/-! ## Laws -/

namespace Holds

variable {comparison} (holds : comparison.Holds) {graph other : Graph} {path : Path}

include holds

theorem keepsGraphs : comparison.likeness.KeepsGraphs where
  stateAt match_ := match_.stateAt holds
  setState match_ states := match_.setState _ states
  record match_ _ := match_.record rfl
  answered match_ _ := match_.record rfl
  resolving := Graphs.resolving
  enter match_ enters otherEnters := match_.enter enters otherEnters
  leave := Graphs.leave
  leave_ended _ := trivial
  handle? := Graphs.handle?
  path modules := (holds.path modules).2.trans (holds.path modules).1.symm
  lookup {path _ _} modules :=
    holds.keepsStates.table (show comparison.likeness.states (.file path) _ _ from
      holds.state modules)

theorem follows_collect (match_ : comparison.Graphs graph other) :
    comparison.likeness.Follows (comparison.likeness.sheets path) graph other
      (Compilation.collect (comparison.project.context path) (.file path))
      (Compilation.collect (comparison.second.context path (comparison.project.text path))
        (.file path)) := by
  have ends := holds.collects path
  change comparison.likeness.Ends _
    (outcome (Compilation.collect (comparison.project.context path) (.file path)) graph)
    (outcome (Compilation.collect
      (comparison.second.context path (comparison.project.text path)) (.file path)) other)
  rw [Compilation.outcome_collect_at, Compilation.outcome_collect_at]
  change (comparison.collections path).Ends _
    (Collect.run (comparison.project.context path)
      (parse (comparison.project.context path).source))
    (Collect.run (comparison.second.context path (comparison.project.text path))
      (parse (comparison.second.context path (comparison.project.text path)).source)) at ends
  generalize Collect.run (comparison.project.context path) _ = ending at ends ⊢
  generalize Collect.run (comparison.second.context path _) _ = otherEnding at ends ⊢
  cases ends with
  | value sheets collections =>
    refine .value sheets ?_
    rw [collections.2]
    exact (match_.setState (.file path) collections.1).recordAll _
  | reason => exact .reason trivial
  | excused excuse => exact .excused excuse

theorem follows_finish (match_ : comparison.Graphs graph other) {sheet otherSheet : Stylesheet}
    (sheets : comparison.likeness.sheets path sheet otherSheet) :
    comparison.likeness.Follows (comparison.modules path) graph other
      (Compilation.finish comparison.project.workspace.options path sheet)
      (Compilation.finish comparison.second.options path otherSheet) :=
  have modules := holds.closes (match_.stateAt holds (.file path)) sheets
  .value modules ((match_.finish holds modules).record rfl)

theorem keeps : comparison.likeness.Keeps comparison.project.workspace comparison.second where
  states := holds.keepsStates
  names := holds.keepsNames
  graphs := holds.keepsGraphs
  files := {
    resolver := holds.resolver
    files := holds.files
    texts := fun match_ unknown readable => match_.text_eq unknown readable
    start := fun match_ path =>
      .value rfl ((match_.setState (.file path) (holds.empty path)).record rfl)
    collect := by
      rintro graph other path _ match_ rfl
      exact holds.follows_collect match_
    finish := fun match_ => holds.follows_finish match_ }

theorem ends : comparison.likeness.Ends (comparison.modules comparison.project.root)
    (outcome (Graph.compile comparison.project.workspace comparison.project.root
      comparison.project.source) .empty)
    (outcome (Graph.compile comparison.second comparison.project.root comparison.project.source)
      .empty) := by
  have opened : comparison.Graphs
      ((Graph.empty.setState (.file comparison.project.root) .empty).record
        (.started comparison.project.root))
      ((Graph.empty.setState (.file comparison.project.root) .empty).record
        (.started comparison.project.root)) := by
    refine ⟨.insert .empty (.inFlight (holds.empty _)), .nil, rfl, rfl, ?_⟩
    simp [Graph.has, Graph.record, Graph.setState, OrderedMap.contains_insert]
  exact Project.ends_of_keeps holds.keeps (.value rfl opened) (if_pos rfl)

end Holds

end Comparison

end ScopedStyles
