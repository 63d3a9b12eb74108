import Mathlib.Data.List.Forall2
import ScopedStyles.Proofs.Graph.Evolution

/-!
Contracts between the requests that nest while a graph is compiled. A contract says what holds of
the graph between any two steps, when the two kinds of requests may be made, and which failures
they may end in. The steps of resolution are taken once, under any contract; a property of all runs
is then a contract that every depth of nested requests meets.
-/

namespace ScopedStyles

/-- The aliases that wait for their imports. -/
def ModuleState.openAliases (state : ModuleState) : List String :=
  (state.imports.map ImportReference.localName).filter (!state.symbols.contains ·)

structure Contract (workspace : Workspace) where
  /-- What holds between any two steps. -/
  keeps : Graph → Prop
  mayLoad : Graph → (specifier : String) → (importer : Path) → Prop
  mayResolve : Graph → Site → (owner : String) → Prop
  /-- The reasons for which a request may end early. -/
  blames : Halt → Prop
  recorded : ∀ {graph} event, keeps graph → keeps (graph.record event)
  /-- A finished file stands in its own slot. -/
  filed : ∀ {graph site compiled}, keeps graph → graph.slots.get? site = some (.finished compiled) →
    site = .file compiled.path
  settled : ∀ {graph site} blocked, graph.IsOpen site → keeps graph →
    keeps (graph.setState site ((graph.stateAt site).settleLiterals blocked))
  imported : ∀ {graph site reference handle entry}, graph.IsOpen site →
    reference ∈ (graph.stateAt site).imports →
    workspace.resolver.resolve workspace.files reference.specifier site.path = .ok handle.path →
    graph.Offers handle → graph.lookup handle reference.imported = .found entry → keeps graph →
    keeps (graph.setState site
      ((graph.stateAt site).recordImported reference.localName entry))
  loadable : ∀ {before after specifier importer}, before.Completes workspace [] after →
    mayLoad before specifier importer → mayLoad after specifier importer
  resolvable : ∀ {before after site owner}, before.Completes workspace [] after →
    mayResolve before site owner → mayResolve after site owner
  /-- A failure that reports no cycle is never held against a request. -/
  plain : ∀ failure, failure.cause.kind ≠ .cyclicComposition → blames (.failed failure)
  /-- A name without compositions still waits after the literals of its file have been settled. -/
  unsettled : ∀ {graph path name}, keeps graph → graph.IsOpen (.file path) →
    ¬ (graph.stateAt (.file path)).compositions.contains name →
    name ∈ ((graph.stateAt (.file path)).settleLiterals
      (graph.stateAt (.file path)).openAliases).pending →
    ∀ failure, blames (.failed failure)
  /-- A name is the alias of an import that has not been resolved. -/
  unimported : ∀ {graph site name reference}, keeps graph → graph.IsOpen site →
    (graph.stateAt site).importOf? name = some reference → ∀ failure, blames (.failed failure)

namespace Compiling

open ScopedStyles.Graph

variable {workspace : Workspace}

/-- An action evolves a graph under a contract. When it ends well, the files that it opened are
finished, and `good` holds. -/
def Advances (contract : Contract workspace) (held : List (Path × String)) (graph : Graph)
    (action : Compiling α) (good : α → Graph → Prop) : Prop :=
  Ensures graph action
    (fun value after =>
      graph.Completes workspace held after ∧ contract.keeps after ∧ good value after)
    fun halt after => graph.Evolves held after ∧ contract.blames halt

namespace Advances

variable {contract : Contract workspace} {held : List (Path × String)} {graph : Graph}

theorem mono {fewer : List (Path × String)} {action : Compiling α} {better good : α → Graph → Prop}
    (advances : Advances contract held graph action better) (less : fewer ⊆ held)
    (weaken : ∀ value after, graph.Completes workspace held after → contract.keeps after →
      better value after → good value after) : Advances contract fewer graph action good :=
  Ensures.mono advances
    (fun value after ⟨completes, keeps, holds⟩ =>
      ⟨completes.mono less, keeps, weaken value after completes keeps holds⟩)
    fun _ _ ⟨evolves, blames⟩ => ⟨evolves.mono less, blames⟩

theorem weaken {action : Compiling α} {better good : α → Graph → Prop}
    (advances : Advances contract held graph action better)
    (weaken : ∀ value after, graph.Completes workspace held after → contract.keeps after →
      better value after → good value after) : Advances contract held graph action good :=
  advances.mono (List.Subset.refl held) weaken

theorem pure {value : α} {good : α → Graph → Prop} (keeps : contract.keeps graph)
    (holds : good value graph) : Advances contract held graph (Pure.pure value) good :=
  ⟨.refl workspace held graph, keeps, holds⟩

theorem fail {site : Site} {location : Location} {cause : Cause} {good : α → Graph → Prop}
    (blames : contract.blames (.failed ⟨site.path, location, cause⟩)) :
    Advances contract held graph (Compiling.fail site location cause) good :=
  ⟨.refl held graph, blames⟩

theorem note {event : GraphEvent} {good : Unit → Graph → Prop} (keeps : contract.keeps graph)
    (holds : good () (graph.record event)) :
    Advances contract held graph (Compiling.note event) good :=
  ⟨.record workspace held graph event, contract.recorded event keeps, holds⟩

theorem update {site : Site} {change : ModuleState → ModuleState} {good : Unit → Graph → Prop}
    (isOpen : graph.IsOpen site)
    (changes : (graph.stateAt site).Change (fun name => (site.path, name) ∈ held)
      (change (graph.stateAt site)))
    (keeps : contract.keeps (graph.setState site (change (graph.stateAt site))))
    (holds : good () (graph.setState site (change (graph.stateAt site)))) :
    Advances contract held graph (Compiling.update site change) good :=
  ⟨.setState workspace held isOpen changes, keeps, holds⟩

theorem bind {action : Compiling α} {next : α → Compiling β} {good : β → Graph → Prop}
    (first : Advances contract held graph action fun value after =>
      Advances contract held after (next value) good) :
    Advances contract held graph (action >>= next) good := by
  refine Ensures.bind (Ensures.mono first ?_ fun _ _ => id)
  intro value middle ⟨completes, _, rest⟩
  apply Ensures.mono rest
  · exact fun _ _ ⟨last, holds⟩ => ⟨completes.trans last, holds⟩
  · exact fun _ _ ⟨last, blames⟩ => ⟨completes.toEvolves.trans last, blames⟩

theorem get {next : Graph → Compiling β} {good : β → Graph → Prop}
    (rest : Advances contract held graph (next graph) good) :
    Advances contract held graph (MonadState.get >>= next) good :=
  Ensures.get rest

theorem stateAt {site : Site} {next : ModuleState → Compiling β} {good : β → Graph → Prop}
    (rest : Advances contract held graph (next (graph.stateAt site)) good) :
    Advances contract held graph (Compiling.stateAt site >>= next) good :=
  Ensures.stateAt rest

theorem forM {items : List ι} {action : ι → Compiling Unit} (invariant : List ι → Graph → Prop)
    (keeps : contract.keeps graph) (start : invariant [] graph)
    (step : ∀ done item rest, items = done ++ item :: rest → ∀ current,
      graph.Completes workspace held current → contract.keeps current → invariant done current →
      Advances contract held current (action item)
        fun _ after => invariant (done ++ [item]) after) :
    Advances contract held graph (items.forM action) fun _ after => invariant items after := by
  refine Ensures.mono (Ensures.forM
    (fun done current => graph.Completes workspace held current ∧ contract.keeps current ∧
      invariant done current) ⟨.refl workspace held graph, keeps, start⟩ ?_) ?_ fun _ _ => id
  · intro done item rest equal current ⟨completes, kept, holds⟩
    apply Ensures.mono (step done item rest equal current completes kept holds)
    · exact fun _ _ ⟨last, held⟩ => ⟨completes.trans last, held⟩
    · exact fun _ _ ⟨last, blames⟩ => ⟨completes.toEvolves.trans last, blames⟩
  · exact fun _ _ ends => ends

/-- A loop that collects values, by an invariant that knows what has been done and collected. -/
theorem mapM {items : List ι} {action : ι → Compiling α}
    (invariant : List ι → List α → Graph → Prop) (keeps : contract.keeps graph)
    (start : invariant [] [] graph)
    (step : ∀ done item rest values, items = done ++ item :: rest → ∀ current,
      graph.Completes workspace held current → contract.keeps current →
      invariant done values current →
      Advances contract held current (action item)
        fun value after => invariant (done ++ [item]) (values ++ [value]) after) :
    Advances contract held graph (items.mapM action)
      fun values after => invariant items values after := by
  refine Ensures.mono (Ensures.mapM
    (fun done values current => graph.Completes workspace held current ∧ contract.keeps current ∧
      invariant done values current) ⟨.refl workspace held graph, keeps, start⟩ ?_) ?_
    fun _ _ => id
  · intro done item rest values equal current ⟨completes, kept, holds⟩
    apply Ensures.mono (step done item rest values equal current completes kept holds)
    · exact fun _ _ ⟨last, held⟩ => ⟨completes.trans last, held⟩
    · exact fun _ _ ⟨last, blames⟩ => ⟨completes.toEvolves.trans last, blames⟩
  · exact fun _ _ ends => ends

end Advances

end Compiling

/-! ## Requests -/

open Compiling ScopedStyles.Graph

structure Calls.Meet {workspace : Workspace} (contract : Contract workspace) (calls : Calls) :
    Prop where
  load : ∀ graph specifier importer location, contract.keeps graph →
    contract.mayLoad graph specifier importer →
    Advances contract graph.resolving graph (calls.load specifier importer location)
      fun handle after => after.Offers handle ∧
        workspace.resolver.resolve workspace.files specifier importer = .ok handle.path
  resolveOwner : ∀ graph site owner, contract.keeps graph → graph.IsOpen site →
    contract.mayResolve graph site owner →
    Advances contract graph.resolving graph (calls.resolveOwner site owner)
      fun _ after => owner ∉ (after.stateAt site).pending

namespace Graph

/-- What a reference stands for, as far as a graph knows. -/
def Reports (workspace : Workspace) (graph : Graph) (site : Site) (reference : Reference)
    (names : List String) : Prop :=
  match reference.source with
  | .sameFile =>
    reference.name ∉ (graph.stateAt site).pending ∧
      ((∃ entry, (graph.stateAt site).table.get? reference.name = some entry ∧
          entry.isLiteral = false ∧ names = entry.names) ∨
        (graph.stateAt site).table.get? reference.name = none ∧
          (graph.stateAt site).classAliases.get? reference.name = some names)
  | .passThrough => names = [reference.name]
  | .file specifier =>
    ∃ handle entry,
      workspace.resolver.resolve workspace.files specifier site.path = .ok handle.path ∧
        graph.Offers handle ∧ graph.lookup handle reference.name = .found entry ∧
        entry.isLiteral = false ∧ names = entry.names

end Graph

namespace Contract

variable {workspace : Workspace}

/-- A file that a specifier means may be loaded, and asked for a name. -/
def MayTake (contract : Contract workspace) (graph : Graph) (specifier : String) (importer : Path)
    (name : String) : Prop :=
  contract.mayLoad graph specifier importer ∧
    ∀ path, workspace.resolver.resolve workspace.files specifier importer = .ok path →
      contract.mayResolve graph (.file path) name

/-- The requests that a reference needs may be made. -/
def MayRefer (contract : Contract workspace) (graph : Graph) (site : Site)
    (reference : Reference) : Prop :=
  match reference.source with
  | .sameFile => contract.mayResolve graph site reference.name
  | .passThrough => True
  | .file specifier => contract.MayTake graph specifier site.path reference.name

variable {contract : Contract workspace} {held : List (Path × String)} {before after : Graph}

theorem mayTake_of_all {specifier : String} {importer : Path} {name : String}
    (mayLoad : contract.mayLoad before specifier importer)
    (mayResolve : ∀ site owner, contract.mayResolve before site owner) :
    contract.MayTake before specifier importer name :=
  ⟨mayLoad, fun _ _ => mayResolve _ _⟩

/-- Where all requests may be made, every reference may be resolved. -/
theorem mayRefer_of_all {site : Site} {reference : Reference}
    (mayLoad : ∀ specifier importer, contract.mayLoad before specifier importer)
    (mayResolve : ∀ site owner, contract.mayResolve before site owner) :
    contract.MayRefer before site reference := by
  unfold MayRefer
  split
  · exact mayResolve site reference.name
  · trivial
  · exact mayTake_of_all (mayLoad _ _) mayResolve

/-! What may be asked for may be asked for later. -/

theorem mayResolve_later {site : Site} {owner : String}
    (completes : before.Completes workspace held after)
    (may : contract.mayResolve before site owner) : contract.mayResolve after site owner :=
  contract.resolvable (completes.mono (List.nil_subset _)) may

theorem mayTake_later {specifier : String} {importer : Path} {name : String}
    (completes : before.Completes workspace held after)
    (may : contract.MayTake before specifier importer name) :
    contract.MayTake after specifier importer name :=
  ⟨contract.loadable (completes.mono (List.nil_subset _)) may.1,
    fun path means => mayResolve_later completes (may.2 path means)⟩

theorem mayRefer_later {site : Site} {reference : Reference}
    (completes : before.Completes workspace held after)
    (may : contract.MayRefer before site reference) : contract.MayRefer after site reference := by
  unfold MayRefer at *
  split at may
  · exact mayResolve_later completes may
  · trivial
  · exact mayTake_later completes may

end Contract

end ScopedStyles
