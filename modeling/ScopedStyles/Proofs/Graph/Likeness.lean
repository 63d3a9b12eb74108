import ScopedStyles.Graph.Compilation
import ScopedStyles.Proofs.Foundation.Alike
import ScopedStyles.Proofs.Foundation.Pairing
import ScopedStyles.Proofs.Graph.Ensures
import ScopedStyles.Proofs.Module.Development

/-!
Two compilations side by side. They are alike in every moment if whatever they decide by is the
same, though what they keep may differ. A likeness says which graphs, states, entries and sheets
are alike, and its laws say that the steps of resolution keep them so; then every request of the one
compilation is followed by the same request of the other one.
-/

namespace ScopedStyles

open Compiling

/-- Answers of the same kind, with entries that are alike, unless only the second one may find an
entry. -/
inductive Lookup.Alike (entries : TokenEntry → TokenEntry → Prop) (extras : TokenEntry → Prop) :
    Lookup → Lookup → Prop where
  | found {entry other : TokenEntry} (alike : entries entry other) :
      Alike entries extras (.found entry) (.found other)
  | unsettled : Alike entries extras .unsettled .unsettled
  | missing : Alike entries extras .missing .missing
  | extra {other : TokenEntry} (extra : extras other) :
      Alike entries extras .missing (.found other)

theorem Lookup.Alike.of_beside {entries : TokenEntry → TokenEntry → Prop}
    {extras : TokenEntry → Prop} {table other : TokenTable} {name : String}
    (beside : Beside entries extras (table.get? name) (other.get? name)) :
    Alike entries extras (table.lookup name) (other.lookup name) := by
  unfold TokenTable.lookup
  generalize table.get? name = found at beside
  generalize other.get? name = otherFound at beside
  cases beside with
  | both alike => exact .found alike
  | neither => exact .missing
  | extra extra => exact .extra extra

/-- Handles of a file, both of them finished or none. -/
inductive Handle.Alike (modules : CompiledModule → CompiledModule → Prop) (path : Path) :
    Handle → Handle → Prop where
  | inFlight : Alike modules path (.inFlight path) (.inFlight path)
  | ready {compiled other : CompiledModule} (alike : modules compiled other) :
      Alike modules path (.ready compiled) (.ready other)

theorem Handle.Alike.isReady_eq {modules : CompiledModule → CompiledModule → Prop} {path : Path}
    {handle other : Handle} (alike : Alike modules path handle other) :
    other.isReady = handle.isReady := by
  cases alike with
  | inFlight => rfl
  | ready => rfl

structure Likeness extends Pairing Halt Graph where
  states : Site → ModuleState → ModuleState → Prop
  entries : Path → String → TokenEntry → TokenEntry → Prop
  /-- Whether an entry of a name may stand in the second compilation only. -/
  extras : Path → String → TokenEntry → Prop
  /-- Names that a reference stands for which a name of a site is composed of, and whether they come
  from another file. -/
  named : Site → String → List String × Bool → List String × Bool → Prop
  sheets : Path → Stylesheet → Stylesheet → Prop
  modules : Path → CompiledModule → CompiledModule → Prop
  /-- Whether a site takes something from another file by this reference. -/
  imports : Site → ImportReference → Prop
  /-- Whether a name of a site is composed by this composition. -/
  composes : Site → String → Composition → Prop
  /-- Whether this is the text that a file is compiled from. -/
  texts : Path → String → Prop

namespace Likeness

variable (likeness : Likeness)

/-- Whatever is decided by what is known at a site is the same, and every change keeps it so. -/
structure KeepsStates (first : Workspace) : Prop where
  pending : ∀ {site state other}, likeness.states site state other → other.pending = state.pending
  compositions : ∀ {site state other}, likeness.states site state other →
    other.compositions = state.compositions
  imports : ∀ {site state other}, likeness.states site state other → other.imports = state.imports
  symbols : ∀ {site state other}, likeness.states site state other →
    ∀ name, other.symbols.contains name = state.symbols.contains name
  table : ∀ {site state other}, likeness.states site state other →
    ∀ name, Beside (likeness.entries site.path name) (likeness.extras site.path name)
      (state.table.get? name) (other.table.get? name)
  classAliases : ∀ {site state other owner composition name}, likeness.states site state other →
    likeness.composes site owner composition → ⟨name, .sameFile⟩ ∈ composition.references →
    Option.Rel (fun names others => likeness.named site owner (names, true) (others, true))
      (state.classAliases.get? name) (other.classAliases.get? name)
  /-- An entry that only the second compilation has takes the place of an alias. -/
  shadows : ∀ {site state other owner composition name names entry},
    likeness.states site state other → likeness.composes site owner composition →
    ⟨name, .sameFile⟩ ∈ composition.references → state.table.get? name = none →
    state.classAliases.get? name = some names → other.table.get? name = some entry →
    entry.isLiteral = false ∧ likeness.named site owner (names, true) (entry.names, false)
  listed : ∀ {site state other}, likeness.states site state other →
    ∀ reference ∈ state.imports, likeness.imports site reference
  composed : ∀ {site state other}, likeness.states site state other →
    ∀ owner, ∀ composition ∈ state.compositionsOf owner,
      likeness.composes site owner composition
  settle : ∀ {site state other}, likeness.states site state other →
    ∀ blocked, likeness.states site (state.settleLiterals blocked) (other.settleLiterals blocked)
  recordImported : ∀ {site state other reference path entry otherEntry},
    likeness.states site state other → likeness.imports site reference →
    first.resolver.resolve first.files reference.specifier site.path = .ok path →
    likeness.entries path reference.imported entry otherEntry →
    likeness.states site (state.recordImported reference.localName entry)
      (other.recordImported reference.localName otherEntry)
  compose : ∀ {site state other owner composition parts otherParts},
    likeness.states site state other → likeness.composes site owner composition →
    List.Forall₂ (likeness.named site owner) parts otherParts →
    likeness.states site
      (state.compose owner (Resolution.mergeNames (parts.map Prod.fst)) (parts.any Prod.snd))
      (other.compose owner (Resolution.mergeNames (otherParts.map Prod.fst))
        (otherParts.any Prod.snd))
  release : ∀ {site state other}, likeness.states site state other →
    ∀ name, likeness.states site (state.release name) (other.release name)

/-- Entries that are alike are of one kind, and stand for names that are alike wherever a reference
means them; an entry that only the second compilation has excuses it from failing alike. -/
structure KeepsNames (first : Workspace) : Prop where
  isLiteral : ∀ {path name entry other}, likeness.entries path name entry other →
    other.isLiteral = entry.isLiteral
  excuses : ∀ {path name entry}, likeness.extras path name entry → ∀ halt, likeness.excused halt
  sameFile : ∀ {site owner composition name entry other},
    likeness.composes site owner composition → ⟨name, .sameFile⟩ ∈ composition.references →
    likeness.entries site.path name entry other →
    likeness.named site owner (entry.names, false) (other.names, false)
  passThrough : ∀ site owner name, likeness.named site owner ([name], true) ([name], true)
  file : ∀ {site owner composition name specifier path entry other},
    likeness.composes site owner composition →
    ⟨name, .file specifier⟩ ∈ composition.references →
    first.resolver.resolve first.files specifier site.path = .ok path →
    likeness.entries path name entry other →
    likeness.named site owner (entry.names, true) (other.names, true)

/-- The graphs show the same files in the same condition, and every step keeps them so. -/
structure KeepsGraphs : Prop where
  stateAt : ∀ {graph other}, likeness.alike graph other →
    ∀ site, likeness.states site (graph.stateAt site) (other.stateAt site)
  setState : ∀ {graph other site state otherState}, likeness.alike graph other →
    likeness.states site state otherState →
    likeness.alike (graph.setState site state) (other.setState site otherState)
  record : ∀ {graph other}, likeness.alike graph other →
    ∀ event, likeness.alike (graph.record event) (other.record event)
  answered : ∀ {graph other path name answer otherAnswer}, likeness.alike graph other →
    Lookup.Alike (likeness.entries path name) (likeness.extras path name) answer otherAnswer →
    likeness.alike (graph.record (.answered path name answer))
      (other.record (.answered path name otherAnswer))
  resolving : ∀ {graph other}, likeness.alike graph other → other.resolving = graph.resolving
  enter : ∀ {graph other entered otherEntered path name}, likeness.alike graph other →
    graph.enter path name = .ok entered → other.enter path name = .ok otherEntered →
    likeness.alike entered otherEntered
  leave : ∀ {graph other}, likeness.alike graph other → likeness.alike graph.leave other.leave
  leave_ended : ∀ {graph other}, likeness.ended graph other →
    likeness.ended graph.leave other.leave
  handle? : ∀ {graph other}, likeness.alike graph other →
    ∀ path, Option.Rel (Handle.Alike (likeness.modules path) path) (graph.handle? path)
      (other.handle? path)
  path : ∀ {path compiled other}, likeness.modules path compiled other →
    other.path = compiled.path
  lookup : ∀ {path compiled other}, likeness.modules path compiled other →
    ∀ name, Beside (likeness.entries path name) (likeness.extras path name)
      (compiled.table.get? name) (other.table.get? name)

/-- The two compilations see the same files, and collect and close them alike. -/
structure KeepsFiles (first second : Workspace) : Prop where
  resolver : second.resolver = first.resolver
  files : second.files = first.files
  texts : ∀ {graph other path source}, likeness.alike graph other → graph.handle? path = none →
    first.files.read path = .ok source → likeness.texts path source
  start : ∀ {graph other}, likeness.alike graph other →
    ∀ path, likeness.Follows Eq graph other (Compilation.start path) (Compilation.start path)
  collect : ∀ {graph other path source}, likeness.alike graph other → likeness.texts path source →
    likeness.Follows (likeness.sheets path) graph other
      (Compilation.collect (first.context path source) (.file path))
      (Compilation.collect (second.context path source) (.file path))
  finish : ∀ {graph other path sheet otherSheet}, likeness.alike graph other →
    likeness.sheets path sheet otherSheet →
    likeness.Follows (likeness.modules path) graph other
      (Compilation.finish first.options path sheet)
      (Compilation.finish second.options path otherSheet)

end Likeness

structure Likeness.Keeps (likeness : Likeness) (first second : Workspace) : Prop where
  states : likeness.KeepsStates first
  names : likeness.KeepsNames first
  graphs : likeness.KeepsGraphs
  files : likeness.KeepsFiles first second

variable {likeness : Likeness} {first second : Workspace} {calls partner : Calls}
  {graph other : Graph}

namespace Likeness.Keeps

variable (keeps : likeness.Keeps first second)

include keeps

/-! ## Single steps -/

theorem stateAt (alike : likeness.alike graph other) (site : Site) :
    likeness.Follows (likeness.states site) graph other (Compiling.stateAt site)
      (Compiling.stateAt site) :=
  .value (keeps.graphs.stateAt alike site) alike

theorem update {site : Site} {change otherChange : ModuleState → ModuleState}
    (alike : likeness.alike graph other)
    (same : ∀ state otherState, likeness.states site state otherState →
      likeness.states site (change state) (otherChange otherState)) :
    likeness.Follows Eq graph other (Compiling.update site change)
      (Compiling.update site otherChange) :=
  .value rfl (keeps.graphs.setState alike (same _ _ (keeps.graphs.stateAt alike site)))

theorem note (alike : likeness.alike graph other) (event : GraphEvent) :
    likeness.Follows Eq graph other (Compiling.note event) (Compiling.note event) :=
  .value rfl (keeps.graphs.record alike event)

theorem whileResolving {path : Path} {name : String} {cyclic : List (Path × String) → Halt}
    {action otherAction : Compiling Unit} (alike : likeness.alike graph other)
    (inside : ∀ entered otherEntered, likeness.alike entered otherEntered →
      likeness.Follows Eq entered otherEntered action otherAction) :
    likeness.Follows Eq graph other (Compiling.whileResolving path name cyclic action)
      (Compiling.whileResolving path name cyclic otherAction) := by
  have resolving := keeps.graphs.resolving alike
  change likeness.Ends _ (outcome (Compiling.whileResolving path name cyclic action) graph)
    (outcome (Compiling.whileResolving path name cyclic otherAction) other)
  rw [outcome_whileResolving, outcome_whileResolving]
  -- The same names are being resolved, so both graphs are entered or neither is.
  cases enters : graph.enter path name with
  | error chain =>
    have blocked : other.enter path name = .error chain := by
      unfold Graph.enter at enters ⊢
      rw [resolving]
      split at enters <;> cases enters
      simp [*]
    rw [blocked]
    exact .reason (likeness.ended_of_alike alike)
  | ok entered =>
    obtain ⟨otherEntered, otherEnters⟩ : ∃ entered, other.enter path name = .ok entered := by
      unfold Graph.enter at enters ⊢
      rw [resolving]
      split at enters
      · cases enters
      · simp [*]
    rw [otherEnters]
    have follows := inside entered otherEntered (keeps.graphs.enter alike enters otherEnters)
    change likeness.Ends _ (outcome action entered) (outcome otherAction otherEntered) at follows
    dsimp only
    generalize outcome action entered = ending at *
    generalize outcome otherAction otherEntered = otherEnding at *
    cases follows with
    | value holds alike => exact .value holds (keeps.graphs.leave alike)
    | reason ended => exact .reason (keeps.graphs.leave_ended ended)
    | excused excuse => exact .excused excuse

end Likeness.Keeps

/-! ## Requests -/

/-- Every request of the first compilation is followed by the same request of the second one. -/
structure Calls.Follow (likeness : Likeness) (workspace : Workspace) (calls partner : Calls) :
    Prop where
  load : ∀ {graph other}, likeness.alike graph other → ∀ specifier importer location,
    likeness.Follows
      (fun handle otherHandle => ∃ path,
        workspace.resolver.resolve workspace.files specifier importer = .ok path ∧
        Handle.Alike (likeness.modules path) path handle otherHandle)
      graph other (calls.load specifier importer location)
      (partner.load specifier importer location)
  resolveOwner : ∀ {graph other}, likeness.alike graph other → ∀ site owner,
    likeness.Follows Eq graph other (calls.resolveOwner site owner)
      (partner.resolveOwner site owner)

namespace Resolution

variable (keeps : likeness.Keeps first second)

include keeps

theorem follows_ask {path : Path} {handle otherHandle : Handle}
    (alike : likeness.alike graph other)
    (handles : Handle.Alike (likeness.modules path) path handle otherHandle) (name : String) :
    likeness.Follows (Lookup.Alike (likeness.entries path name) (likeness.extras path name)) graph
      other (ask handle name) (ask otherHandle name) := by
  cases handles with
  | inFlight =>
    have states := keeps.graphs.stateAt alike (.file path)
    have answers : Lookup.Alike (likeness.entries path name) (likeness.extras path name)
        ((graph.stateAt (.file path)).lookup name) ((other.stateAt (.file path)).lookup name) := by
      unfold ModuleState.lookup ModuleState.isSettled
      rw [keeps.states.pending states]
      split
      · exact .of_beside (keeps.states.table states name)
      · exact .unsettled
    exact .value answers (keeps.graphs.answered alike answers)
  | ready modules => exact .value (.of_beside (keeps.graphs.lookup modules name)) alike

variable (follow : calls.Follow likeness first partner)

include follow

theorem follows_settleInFlight (alike : likeness.alike graph other) (path : Path) (name : String) :
    likeness.Follows Eq graph other (settleInFlight calls path name)
      (settleInFlight partner path name) := by
  apply Pairing.Follows.bind (keeps.stateAt alike (.file path))
  intro state otherState after otherAfter states alikeAfter
  rw [keeps.states.compositions states, keeps.states.imports states]
  simp only [keeps.states.symbols states]
  split
  · exact follow.resolveOwner alikeAfter _ _
  · exact keeps.update alikeAfter fun _ _ same => keeps.states.settle same _

theorem follows_lookUp {path : Path} {handle otherHandle : Handle}
    (alike : likeness.alike graph other)
    (handles : Handle.Alike (likeness.modules path) path handle otherHandle) (site : Site)
    (name requester specifier : String) (location : Location) :
    likeness.Follows (likeness.entries path name) graph other
      (lookUp calls site handle name requester specifier location)
      (lookUp partner site otherHandle name requester specifier location) := by
  have samePath : otherHandle.path = handle.path := by
    cases handles with
    | inFlight => rfl
    | ready modules => exact keeps.graphs.path modules
  unfold lookUp
  rw [samePath]
  apply Pairing.Follows.bind (follows_ask keeps alike handles name)
  intro answer otherAnswer after otherAfter answers alikeAfter
  cases answers with
  | found entries => exact .value entries alikeAfter
  | missing => exact .throw alikeAfter
  | extra extra => exact .excused (keeps.names.excuses extra _)
  | unsettled =>
    apply Pairing.Follows.bind (follows_settleInFlight keeps follow alikeAfter handle.path name)
    intro _ _ settled otherSettled _ alikeSettled
    apply Pairing.Follows.bind (follows_ask keeps alikeSettled handles name)
    intro answer otherAnswer last otherLast answers alikeLast
    cases answers with
    | found entries => exact .value entries alikeLast
    | unsettled => exact .throw alikeLast
    | missing => exact .throw alikeLast
    | extra extra => exact .excused (keeps.names.excuses extra _)

/-- Where the first compilation finds no entry and fails, the second one is bound to nothing if it
finds one. -/
theorem follows_localNames (alike : likeness.alike graph other) {site : Site} {owner name : String}
    {composition : Composition} (composes : likeness.composes site owner composition)
    (refers : ⟨name, .sameFile⟩ ∈ composition.references) (location : Location) :
    likeness.Follows (likeness.named site owner) graph other (localNames calls site name location)
      (localNames partner site name location) := by
  apply Pairing.Follows.bind (follow.resolveOwner alike site name)
  intro _ _ resolved otherResolved _ alikeResolved
  apply Pairing.Follows.bind (keeps.stateAt alikeResolved site)
  intro state otherState after otherAfter states alikeAfter
  have entries := keeps.states.table states name
  have aliases := keeps.states.classAliases states composes refers
  have shadows : ∀ names entry, state.table.get? name = none →
      state.classAliases.get? name = some names → otherState.table.get? name = some entry →
      entry.isLiteral = false ∧ likeness.named site owner (names, true) (entry.names, false) :=
    fun _ _ => keeps.states.shadows states composes refers
  generalize state.table.get? name = entry at entries shadows
  generalize otherState.table.get? name = otherEntry at entries shadows
  generalize state.classAliases.get? name = names at aliases shadows
  generalize otherState.classAliases.get? name = otherNames at aliases
  cases entries with
  | both entries =>
    dsimp only
    rw [keeps.names.isLiteral entries]
    split
    · exact .throw alikeAfter
    · exact .pure alikeAfter (keeps.names.sameFile composes refers entries)
  | neither =>
    cases aliases with
    | some names => exact .pure alikeAfter names
    | none =>
      dsimp only
      rw [keeps.states.symbols states, ModuleState.importOf?, ModuleState.importOf?,
        keeps.states.imports states]
      split
      · exact .throw alikeAfter
      · split
        · exact .throw alikeAfter
        · exact .throw alikeAfter
  | extra extra =>
    cases aliases with
    | some _ =>
      obtain ⟨noLiteral, named⟩ := shadows _ _ rfl rfl rfl
      dsimp only
      rw [noLiteral]
      exact .pure alikeAfter named
    | none =>
      dsimp only
      split
      · exact .excused (keeps.names.excuses extra _)
      · split
        · exact .excused (keeps.names.excuses extra _)
        · exact .excused (keeps.names.excuses extra _)

theorem follows_referenceNames (alike : likeness.alike graph other) {site : Site} {owner : String}
    {composition : Composition} (composes : likeness.composes site owner composition)
    {reference : Reference} (refers : reference ∈ composition.references) (location : Location) :
    likeness.Follows (likeness.named site owner) graph other
      (referenceNames calls site owner location reference)
      (referenceNames partner site owner location reference) := by
  obtain ⟨name, _ | _ | specifier⟩ := reference
  · exact follows_localNames keeps follow alike composes refers location
  · exact .pure alike (keeps.names.passThrough site owner name)
  · apply Pairing.Follows.bind (follow.load alike _ site.path location)
    rintro handle otherHandle loaded otherLoaded ⟨path, means, handles⟩ alikeLoaded
    apply Pairing.Follows.bind (follows_lookUp keeps follow alikeLoaded handles site _ owner _ _)
    intro entry otherEntry after otherAfter entries alikeAfter
    rw [keeps.names.isLiteral entries]
    split
    · exact .throw alikeAfter
    · exact .pure alikeAfter (keeps.names.file composes refers means entries)

theorem follows_compose (alike : likeness.alike graph other) {site : Site} {owner : String}
    {composition : Composition} (composes : likeness.composes site owner composition) :
    likeness.Follows Eq graph other (compose calls site owner composition)
      (compose partner site owner composition) := by
  apply Pairing.Follows.bind (Pairing.Follows.mapM alike fun reference refers _ _ alike =>
    follows_referenceNames keeps follow alike composes refers composition.location)
  intro parts otherParts after otherAfter named alikeAfter
  exact keeps.update alikeAfter fun _ _ same => keeps.states.compose same composes named

theorem follows_resolveOwner (alike : likeness.alike graph other) (site : Site) (owner : String) :
    likeness.Follows Eq graph other (resolveOwner calls site owner)
      (resolveOwner partner site owner) := by
  apply Pairing.Follows.bind (keeps.stateAt alike site)
  intro state otherState after otherAfter states alikeAfter
  have compositions : otherState.compositionsOf owner = state.compositionsOf owner := by
    rw [ModuleState.compositionsOf, keeps.states.compositions states, ModuleState.compositionsOf]
  have settled : otherState.isSettled owner = state.isSettled owner := by
    rw [ModuleState.isSettled, keeps.states.pending states, ModuleState.isSettled]
  rw [compositions, settled]
  dsimp only
  split
  · exact .pure alikeAfter rfl
  · refine Pairing.Follows.bind (keeps.whileResolving alikeAfter ?_) ?_
    · intro entered otherEntered alikeEntered
      apply Pairing.Follows.forM alikeEntered
      intro composition listed current otherCurrent alikeCurrent
      exact follows_compose keeps follow alikeCurrent
        (keeps.states.composed states owner composition listed)
    · intro _ _ resolved otherResolved _ alikeResolved
      exact keeps.update alikeResolved fun _ _ same => keeps.states.release same owner

theorem follows_resolveImport (alike : likeness.alike graph other) {site : Site}
    {reference : ImportReference} (imports : likeness.imports site reference) :
    likeness.Follows Eq graph other (resolveImport calls site reference)
      (resolveImport partner site reference) := by
  apply Pairing.Follows.bind (follow.load alike _ site.path _)
  rintro handle otherHandle loaded otherLoaded ⟨path, means, handles⟩ alikeLoaded
  apply Pairing.Follows.bind (follows_lookUp keeps follow alikeLoaded handles site _ _ _ _)
  intro entry otherEntry after otherAfter entries alikeAfter
  exact keeps.update alikeAfter fun _ _ same =>
    keeps.states.recordImported same imports means entries

theorem follows_resolve (alike : likeness.alike graph other) (site : Site) :
    likeness.Follows Eq graph other (resolve calls site) (resolve partner site) := by
  apply Pairing.Follows.bind (keeps.stateAt alike site)
  intro state otherState started otherStarted states alikeStarted
  rw [keeps.states.imports states]
  have imported : likeness.Follows Eq started otherStarted
      (state.imports.forM (resolveImport calls site))
      (state.imports.forM (resolveImport partner site)) :=
    .forM alikeStarted fun reference listed _ _ alike =>
      follows_resolveImport keeps follow alike (keeps.states.listed states reference listed)
  apply Pairing.Follows.bind imported
  intro _ _ known otherKnown _ alikeKnown
  apply Pairing.Follows.bind
    (keeps.update alikeKnown fun _ _ same => keeps.states.settle same [])
  intro _ _ settled otherSettled _ alikeSettled
  apply Pairing.Follows.bind (keeps.stateAt alikeSettled site)
  intro state otherState after otherAfter states alikeAfter
  rw [keeps.states.compositions states]
  exact .forM alikeAfter fun owner _ _ _ alike => follow.resolveOwner alike site owner

end Resolution

namespace Compilation

variable (keeps : likeness.Keeps first second)

include keeps

theorem follows_compile {resolve otherResolve : Site → Compiling Unit} {path : Path}
    {source : String}
    (starts : likeness.Follows Eq graph other (start path) (start path))
    (texts : likeness.texts path source)
    (resolves : ∀ current otherCurrent, likeness.alike current otherCurrent →
      likeness.Follows Eq current otherCurrent (resolve (.file path)) (otherResolve (.file path))) :
    likeness.Follows (likeness.modules path) graph other (compile first resolve path source)
      (compile second otherResolve path source) := by
  apply Pairing.Follows.bind starts
  intro _ _ started otherStarted _ alikeStarted
  apply Pairing.Follows.bind (keeps.files.collect alikeStarted texts)
  intro sheet otherSheet collected otherCollected sheets alikeCollected
  apply Pairing.Follows.bind (resolves _ _ alikeCollected)
  intro _ _ after otherAfter _ alikeAfter
  exact keeps.files.finish alikeAfter sheets

theorem follows_load (follow : calls.Follow likeness first partner)
    (alike : likeness.alike graph other) (specifier : String) (importer : Path)
    (location : Location) :
    likeness.Follows
      (fun handle otherHandle => ∃ path,
        first.resolver.resolve first.files specifier importer = .ok path ∧
        Handle.Alike (likeness.modules path) path handle otherHandle)
      graph other (load first calls specifier importer location)
      (load second partner specifier importer location) := by
  unfold load
  rw [keeps.files.resolver, keeps.files.files]
  dsimp only
  cases means : first.resolver.resolve first.files specifier importer with
  | error reason => exact .throw alike
  | ok path =>
    apply Pairing.Follows.get
    -- Both graphs have been asked for the file, or neither has.
    have handles := keeps.graphs.handle? alike path
    generalize asked : graph.handle? path = handle at handles
    generalize other.handle? path = otherHandle at handles
    cases handles with
    | some handles =>
      apply Pairing.Follows.bind (keeps.note alike _)
      intro _ _ noted otherNoted _ alikeNoted
      rw [handles.isReady_eq]
      apply Pairing.Follows.bind (keeps.note alikeNoted _)
      intro _ _ handed otherHanded _ alikeHanded
      exact .pure alikeHanded ⟨path, rfl, handles⟩
    | none =>
      apply Pairing.Follows.bind (keeps.note alike _)
      intro _ _ noted otherNoted _ alikeNoted
      cases readable : first.files.read path with
      | error reason => exact .throw alikeNoted
      | ok source =>
        have texts := keeps.files.texts alike asked readable
        apply Pairing.Follows.bind (keeps.note alikeNoted _)
        intro _ _ read otherRead _ alikeRead
        have starts := keeps.files.start alikeRead path
        apply Pairing.Follows.bind (follows_compile keeps starts texts fun _ _ alike =>
          Resolution.follows_resolve keeps follow alike _)
        intro compiled otherCompiled closed otherClosed modules alikeClosed
        apply Pairing.Follows.bind (keeps.note alikeClosed _)
        intro _ _ handed otherHanded _ alikeHanded
        exact .pure alikeHanded ⟨path, rfl, .ready modules⟩

theorem follow_calls : ∀ depth,
    (Compilation.calls first depth).Follow likeness first (Compilation.calls second depth)
  | 0 => ⟨fun alike _ _ _ => .throw alike, fun alike _ _ => .throw alike⟩
  | depth + 1 =>
    have follow := follow_calls depth
    { load := follows_load keeps follow
      resolveOwner := Resolution.follows_resolveOwner keeps follow }

end Compilation

/-! ## Compilations that are the same -/

namespace Likeness

/-- Both compilations are in the same graph all the time, and come to the same. -/
def equality (excused : Halt → Prop) : Likeness where
  alike := Eq
  ended := Eq
  excused
  ended_of_alike := id
  states _ := Eq
  entries _ _ := Eq
  extras _ _ _ := False
  named _ _ := Eq
  sheets _ := Eq
  modules _ := Eq
  imports _ _ := True
  composes _ _ _ := True
  texts _ _ := True

variable {excused : Halt → Prop}

theorem equality_refl (action : Compiling α) (graph : Graph) :
    (equality excused).Follows Eq graph graph action action := by
  unfold Pairing.Follows
  generalize (action.run.run graph).run = ending
  obtain ⟨_ | value, after⟩ := ending
  · exact .reason rfl
  · exact .value rfl rfl

/-- An action that is followed comes to the same, or the first one ends for an excused reason. -/
theorem outcome_of_equality {action partner : Compiling α} {graph : Graph}
    (follows : (equality excused).Follows Eq graph graph action partner) :
    (∃ halt, (outcome action graph).1 = .error halt ∧ excused halt) ∨
      outcome partner graph = outcome action graph := by
  change (equality excused).Ends Eq (outcome action graph) (outcome partner graph) at follows
  generalize outcome action graph = ending at follows ⊢
  generalize outcome partner graph = otherEnding at follows ⊢
  cases follows with
  | value same sameGraph => exact .inr (same ▸ sameGraph ▸ rfl)
  | reason sameGraph => exact .inr (sameGraph ▸ rfl)
  | excused excuse => exact .inl ⟨_, rfl, excuse⟩

theorem rel_eq_refl (value : Option α) : Option.Rel Eq value value := by
  cases value with
  | none => exact .none
  | some value => exact .some rfl

theorem keepsStates_equality (workspace : Workspace) :
    (equality excused).KeepsStates workspace where
  pending same := same ▸ rfl
  compositions same := same ▸ rfl
  imports same := same ▸ rfl
  symbols same _ := same ▸ rfl
  table same _ := same ▸ .of_rel (rel_eq_refl _)
  classAliases {_ state _ _ _ name} same _ _ := by
    cases same
    cases state.classAliases.get? name with
    | none => exact .none
    | some names => exact .some rfl
  shadows same _ _ none _ found := by
    cases same
    cases none.symm.trans found
  listed _ _ _ := trivial
  composed _ _ _ _ := trivial
  settle same _ := same ▸ rfl
  recordImported same _ _ sameEntry := same ▸ sameEntry ▸ rfl
  compose same _ sameParts := by
    rw [equality, List.forall₂_eq_eq_eq] at sameParts
    exact same ▸ sameParts ▸ rfl
  release same _ := same ▸ rfl

theorem keepsNames_equality (workspace : Workspace) :
    (equality excused).KeepsNames workspace where
  isLiteral same := same ▸ rfl
  excuses extra := extra.elim
  sameFile _ _ same := same ▸ rfl
  passThrough _ _ _ := rfl
  file _ _ _ same := same ▸ rfl

theorem keepsGraphs_equality : (equality excused).KeepsGraphs where
  stateAt same _ := same ▸ rfl
  setState same sameState := same ▸ sameState ▸ rfl
  record same _ := same ▸ rfl
  answered same answers := by
    cases same
    cases answers with
    | found same => exact same ▸ rfl
    | unsettled => rfl
    | missing => rfl
    | extra extra => exact extra.elim
  resolving same := same ▸ rfl
  enter same enters otherEnters := by
    cases same
    rw [enters] at otherEnters
    exact Except.ok.inj otherEnters
  leave same := same ▸ rfl
  leave_ended same := same ▸ rfl
  handle? same path := by
    cases same
    unfold Graph.handle?
    cases Graph.slots _ |>.get? (.file path) with
    | none => exact .none
    | some slot =>
      cases slot with
      | inFlight => exact .some .inFlight
      | finished => exact .some (.ready rfl)
  path same := same ▸ rfl
  lookup same _ := same ▸ .of_rel (rel_eq_refl _)

/-- Compilations that see the same files, start them with the same actions and end them with the
same actions are the same, as far as they collect the same. -/
theorem keeps_equality {first second : Workspace} (resolver : second.resolver = first.resolver)
    (files : second.files = first.files)
    (options : second.options.removeEmptyRules = first.options.removeEmptyRules)
    (collect : ∀ graph path source, (equality excused).Follows Eq graph graph
      (Compilation.collect (first.context path source) (.file path))
      (Compilation.collect (second.context path source) (.file path))) :
    (equality excused).Keeps first second where
  states := keepsStates_equality first
  names := keepsNames_equality first
  graphs := keepsGraphs_equality
  files := {
    resolver
    files
    texts := fun _ _ _ => trivial
    start := fun same path => same ▸ equality_refl _ _
    collect := fun same _ => same ▸ collect _ _ _
    finish := fun {graph other path sheet otherSheet} same sameSheet => by
      cases same
      cases sameSheet
      have finishes : Compilation.finish second.options path sheet =
          Compilation.finish first.options path sheet := by
        unfold Compilation.finish
        rw [options]
      rw [finishes]
      exact equality_refl _ _ }

end Likeness

end ScopedStyles
