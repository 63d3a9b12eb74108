import ScopedStyles.Proofs.Graph.Nesting
import ScopedStyles.Proofs.Graph.Origins
import ScopedStyles.Proofs.Module.Locations

/-!
Failures point at the sources. A run that fails names a file that it was compiling when it failed,
and the location of a rule, an at-rule or a declaration in the text of this very file.

Every request carries the location of the node that it is made for, and this node stands in the file
that makes the request. The one failure without such a location is that of a name that is resolved
again while it is being resolved; it points at the first composition of the name, and a name that
has none makes no request in the meantime.
-/

namespace ScopedStyles

open Compiling ScopedStyles.Graph

namespace Project

variable {project : Project} {graph after : Graph} {path : Path}

/-- The locations of the rules, at-rules and declarations in the text of a file. -/
def places (project : Project) (path : Path) : List Location :=
  Node.placesAll (parse (project.text path))

/-- A failure points at a node in the text of an open file. -/
def Points (project : Project) (halt : Halt) (graph : Graph) : Prop :=
  ∀ failure, halt = .failed failure →
    graph.IsOpen (.file failure.file) ∧ failure.location ∈ project.places failure.file

theorem Points.congr {halt : Halt} (points : project.Points halt graph)
    (same : after.slots = graph.slots) : project.Points halt after := by
  intro failure failed
  obtain ⟨isOpen, place⟩ := points failure failed
  rw [Graph.IsOpen, ← same] at isOpen
  exact ⟨isOpen, place⟩

/-! ## What is known about the files of a run -/

theorem Grows.locatedIn (grows : project.Grows graph) (path : Path) :
    (graph.stateAt (.file path)).LocatedIn (project.places path) := by
  cases found : graph.slots.get? (.file path) with
  | none =>
    rw [Graph.stateAt, found]
    exact .empty
  | some slot =>
    rw [stateAt_of_get? found]
    have located := (Collect.locates_run (project.context path) (parse (project.text path))).1
    exact located.same (grows.develops path slot found).sameDeclarations

/-- Between two requests, only names with compositions are being resolved. -/
structure Ready (project : Project) (graph : Graph) : Prop extends project.Grows graph where
  busy : ∀ path name, (path, name) ∈ graph.resolving →
    (graph.stateAt (.file path)).compositionsOf name ≠ []

theorem ready_opened : project.Ready project.opened where
  toGrows := project.grows_opened
  busy path name member := by
    rw [opened, resolving_opening] at member
    cases member

theorem Ready.breaks (ready : project.Ready graph)
    (breaks : graph.Breaks project.workspace after) : project.Ready after where
  toGrows := ready.toGrows.steps breaks.steps
  busy path name member := by
    rw [breaks.resolving] at member
    have busy := ready.busy path name member
    cases found : graph.slots.get? (.file path) with
    | none =>
      rw [Graph.stateAt, found] at busy
      exact absurd rfl busy
    | some slot =>
      have same := (breaks.steps.develops found).sameDeclarations
      rw [ModuleState.compositionsOf, same.compositions]
      exact busy

theorem Ready.returns (ready : project.Ready graph)
    (returns : graph.Returns project.workspace after) : project.Ready after :=
  ready.breaks returns.breaks

theorem Ready.entered (ready : project.Ready graph) {entered : Graph} {name : String}
    (isOpen : graph.IsOpen (.file path)) (waits : name ∈ (graph.stateAt (.file path)).pending)
    (enters : graph.enter path name = .ok entered)
    (owns : (graph.stateAt (.file path)).compositionsOf name ≠ []) : project.Ready entered where
  toGrows := by
    have step : graph.Step project.workspace True entered := .entered isOpen waits enters
    exact ready.toGrows.step step
  busy other otherName member := by
    obtain ⟨_, resolving, slots⟩ := enter_eq_ok enters
    rw [stateAt_congr slots]
    rw [resolving] at member
    rcases List.mem_append.mp member with earlier | last
    · exact ready.busy other otherName earlier
    · cases List.mem_singleton.mp last
      exact owns

/-! ## Actions that fail at nodes of open files -/

/-- If an action fails on a graph, it points at a node of an open file. -/
def Locates (project : Project) (graph : Graph) (action : Compiling α) : Prop :=
  Ensures graph action (fun _ _ => True) project.Points

namespace Locates

theorem pure {value : α} : project.Locates graph (Pure.pure value) :=
  trivial

theorem note {event : GraphEvent} : project.Locates graph (Compiling.note event) :=
  trivial

theorem update {site : Site} {change : ModuleState → ModuleState} :
    project.Locates graph (Compiling.update site change) :=
  trivial

theorem fail {location : Location} {cause : Cause} (isOpen : graph.IsOpen (.file path))
    (place : location ∈ project.places path) :
    project.Locates graph (Compiling.fail (.file path) location cause : Compiling α) := by
  refine Ensures.fail fun failure failed => ?_
  cases failed
  exact ⟨isOpen, place⟩

theorem knowing {action : Compiling α} {good : α → Graph → Prop} {bad : Halt → Graph → Prop}
    (locates : project.Locates graph action) (ensures : Ensures graph action good bad) :
    Ensures graph action good project.Points :=
  Ensures.mono (ensures.and locates) (fun _ _ ⟨holds, _⟩ => holds) fun _ _ ⟨_, points⟩ => points

theorem bind {action : Compiling α} {next : α → Compiling β} {good : α → Graph → Prop}
    (first : project.Locates graph action) (walks : Walks project.workspace graph action good)
    (rest : ∀ value after, graph.Returns project.workspace after → good value after →
      project.Locates after (next value)) : project.Locates graph (action >>= next) :=
  Ensures.bind (Ensures.mono (first.knowing walks)
    (fun value after ⟨returns, holds⟩ => rest value after returns holds) fun _ _ => id)

theorem before {action : Compiling α} {next : α → Compiling β}
    (first : project.Locates graph action)
    (rest : ∀ value after, project.Locates after (next value)) :
    project.Locates graph (action >>= next) :=
  Ensures.bind (Ensures.mono first (fun value after _ => rest value after) fun _ _ => id)

theorem forM {items : List ι} {action : ι → Compiling Unit}
    (step : ∀ item ∈ items, ∀ current, graph.Returns project.workspace current →
      Walks project.workspace current (action item) (fun _ _ => True) ∧
        project.Locates current (action item)) : project.Locates graph (items.forM action) := by
  refine Ensures.mono (Ensures.forM (fun _ current => graph.Returns project.workspace current)
    (.refl project.workspace graph) ?_) (fun _ _ _ => trivial) fun _ _ => id
  intro done item rest equal current returns
  obtain ⟨walks, locates⟩ := step item (by simp [equal]) current returns
  exact Ensures.mono (locates.knowing walks) (fun _ _ ⟨further, _⟩ => returns.trans further)
    fun _ _ => id

theorem mapM {items : List ι} {action : ι → Compiling α}
    (step : ∀ item ∈ items, ∀ current, graph.Returns project.workspace current →
      Walks project.workspace current (action item) (fun _ _ => True) ∧
        project.Locates current (action item)) : project.Locates graph (items.mapM action) := by
  refine Ensures.mono (Ensures.mapM (fun _ _ current => graph.Returns project.workspace current)
    (.refl project.workspace graph) ?_) (fun _ _ _ => trivial) fun _ _ => id
  intro done item rest values equal current returns
  obtain ⟨walks, locates⟩ := step item (by simp [equal]) current returns
  exact Ensures.mono (locates.knowing walks) (fun _ _ ⟨further, _⟩ => returns.trans further)
    fun _ _ => id

end Locates

end Project

/-! ## Requests -/

/-- The requests that a file at work makes point at its nodes, or at those of the files that are
compiled on their behalf. -/
structure Calls.Locate (project : Project) (calls : Calls) : Prop where
  load : ∀ graph specifier importer location, project.Ready graph →
    graph.Works project.workspace importer →
    specifier ∈ (graph.stateAt (.file importer)).askedFor →
    location ∈ project.places importer →
    project.Locates graph (calls.load specifier importer location)
  resolveOwner : ∀ graph path owner, project.Ready graph →
    graph.Works project.workspace path →
    project.Locates graph (calls.resolveOwner (.file path) owner)

namespace Resolution

variable {project : Project} {calls : Calls} {graph : Graph} {path : Path}

theorem locates_ask (handle : Handle) (name : String) : project.Locates graph (ask handle name) := by
  refine Ensures.get ?_
  dsimp only
  split
  · exact Project.Locates.pure
  · exact Project.Locates.note.before fun _ _ => .pure

theorem locates_settleInFlight (locate : calls.Locate project) (ready : project.Ready graph)
    (works : graph.Works project.workspace path) (name : String) :
    project.Locates graph (settleInFlight calls path name) := by
  refine Ensures.stateAt ?_
  split
  · exact locate.resolveOwner graph path name ready works
  · exact Project.Locates.update

theorem locates_lookUp (walk : calls.Walk project.workspace) (locate : calls.Locate project)
    (ready : project.Ready graph) (works : graph.Works project.workspace path) {handle : Handle}
    (offers : graph.Offers handle) (needs : graph.Needs project.workspace path handle.path)
    (name requester specifier : String) {location : Location}
    (place : location ∈ project.places path) :
    project.Locates graph
      (lookUp calls (.file path) handle name requester specifier location) := by
  refine (locates_ask handle name).bind (walks_ask offers name) ?_
  rintro answer asked returns ⟨answers, -⟩
  dsimp only
  split
  · rename_i unsettled
    cases handle with
    | ready compiled =>
      rw [unsettled] at answers
      exact absurd answers.symm (lookup_ne_unsettled nofun)
    | inFlight target =>
      have isOpen : asked.IsOpen (.file target) := returns.offers offers
      have works' := (returns.works works).of_needs (returns.steps.needs needs) isOpen
      refine (locates_settleInFlight locate (ready.returns returns) works' name).bind
        (walks_settleInFlight walk works' name) ?_
      rintro _ settled further -
      refine (locates_ask (.inFlight target) name).bind
        (walks_ask (further.offers (returns.offers offers)) name) ?_
      rintro answer last again -
      have isOpen := (again.works (further.works (returns.works works))).isOpen
      split
      · exact .pure
      · exact .fail isOpen place
      · exact .fail isOpen place
  · refine Ensures.bind (Ensures.pure ?_)
    have isOpen := (returns.works works).isOpen
    split
    · exact Project.Locates.pure
    · exact Project.Locates.fail isOpen place
    · exact Project.Locates.fail isOpen place

theorem locates_localNames (walk : calls.Walk project.workspace) (locate : calls.Locate project)
    (ready : project.Ready graph) (works : graph.Works project.workspace path) (name : String)
    {location : Location} (place : location ∈ project.places path) :
    project.Locates graph (localNames calls (.file path) name location) := by
  refine Ensures.bind (Ensures.mono ((locate.resolveOwner graph path name ready works).knowing
    (walk.resolveOwner graph path name works)) ?_ fun _ _ => id)
  intro _ after ends
  have isOpen : after.IsOpen (.file path) := by
    rcases ends with ⟨returns, -⟩ | stuck
    · exact (returns.works works).isOpen
    · exact stuck.isOpen
  refine Ensures.stateAt ?_
  split
  · split
    · exact Project.Locates.fail isOpen place
    · exact Project.Locates.pure
  · exact Project.Locates.pure
  · split
    · exact Project.Locates.fail isOpen place
    · split
      · exact Project.Locates.fail isOpen place
      · exact Project.Locates.fail isOpen place

theorem locates_referenceNames (walk : calls.Walk project.workspace) (locate : calls.Locate project)
    (ready : project.Ready graph) (works : graph.Works project.workspace path) (owner : String)
    {location : Location} (place : location ∈ project.places path) {reference : Reference}
    (asks : ∀ specifier, reference.source = .file specifier →
      specifier ∈ (graph.stateAt (.file path)).askedFor) :
    project.Locates graph (referenceNames calls (.file path) owner location reference) := by
  obtain ⟨name, source⟩ := reference
  cases source with
  | sameFile => exact locates_localNames walk locate ready works name place
  | passThrough => exact Project.Locates.pure
  | file specifier =>
    have asks := asks specifier rfl
    refine (locate.load graph specifier path location ready works asks place).bind
      (walk.load graph specifier path location works asks) ?_
    rintro handle loaded returns ⟨offers, means⟩
    have needs := returns.steps.needs ⟨specifier, asks, means⟩
    have works' := returns.works works
    refine (locates_lookUp walk locate (ready.returns returns) works' offers needs name owner
      specifier place).bind (walks_lookUp walk works' offers needs name owner specifier location) ?_
    rintro entry last further -
    split
    · exact .fail (further.works works').isOpen place
    · exact .pure

theorem asks_of_composition {current : Graph} {owner : String} {composition : Composition}
    (works : graph.Works project.workspace path)
    (member : composition ∈ (graph.stateAt (.file path)).compositionsOf owner)
    (returns : graph.Returns project.workspace current) {reference : Reference}
    (referred : reference ∈ composition.references) (specifier : String)
    (isFile : reference.source = .file specifier) :
    specifier ∈ (current.stateAt (.file path)).askedFor := by
  rw [(returns.develops works.isOpen).sameDeclarations.askedFor]
  exact ModuleState.mem_askedFor_of_composition member referred isFile

theorem locates_compose (walk : calls.Walk project.workspace) (locate : calls.Locate project)
    (ready : project.Ready graph) (works : graph.Works project.workspace path) {owner : String}
    {composition : Composition}
    (member : composition ∈ (graph.stateAt (.file path)).compositionsOf owner) :
    project.Locates graph (compose calls (.file path) owner composition) := by
  have place := (ready.locatedIn path).compositions owner composition member
  refine Project.Locates.before (.mapM fun reference referred current returns => ?_) fun _ _ =>
    .update
  have asks := asks_of_composition works member returns referred
  exact ⟨walks_referenceNames walk (returns.works works) owner _ asks,
    locates_referenceNames walk locate (ready.returns returns) (returns.works works) owner place asks⟩

theorem locates_compositions (walk : calls.Walk project.workspace) (locate : calls.Locate project)
    (ready : project.Ready graph) (works : graph.Works project.workspace path) {owner : String}
    {outer : List (Path × String)} (innermost : graph.resolving = outer ++ [(path, owner)]) :
    project.Locates graph (((graph.stateAt (.file path)).compositionsOf owner).forM
      (compose calls (.file path) owner)) := by
  refine .forM fun composition member current returns => ?_
  have same := (returns.develops works.isOpen).sameDeclarations
  have member : composition ∈ (current.stateAt (.file path)).compositionsOf owner := by
    rw [ModuleState.compositionsOf, same.compositions]
    exact member
  have works' := returns.works works
  exact ⟨walks_compose walk works' (returns.resolving.trans innermost) member,
    locates_compose walk locate (ready.returns returns) works' member⟩

/-- A name that is resolved again has compositions, and the failure points at the first of them. -/
theorem points_cyclic (ready : project.Ready graph) (works : graph.Works project.workspace path)
    {owner : String} {chain : List (Path × String)}
    (again : graph.enter path owner = .error chain) :
    project.Points (cyclic (.file path) owner ((graph.stateAt (.file path)).compositionsOf owner)
      chain) graph := by
  have member : (path, owner) ∈ graph.resolving := by
    unfold enter at again
    split at again
    · assumption
    · cases again
  rcases compositions : (graph.stateAt (.file path)).compositionsOf owner with _ | ⟨first, rest⟩
  · exact absurd compositions (ready.busy path owner member)
  · intro failure failed
    cases failed
    refine ⟨works.isOpen, (ready.locatedIn path).compositions owner first ?_⟩
    rw [compositions]
    exact List.mem_cons_self

theorem locates_resolveOwner (walk : calls.Walk project.workspace) (locate : calls.Locate project)
    (ready : project.Ready graph) (works : graph.Works project.workspace path) (owner : String) :
    project.Locates graph (resolveOwner calls (.file path) owner) := by
  refine Ensures.stateAt ?_
  split
  · exact Project.Locates.pure
  rename_i waits
  have waits : owner ∈ (graph.stateAt (.file path)).pending := by
    simpa [ModuleState.isSettled] using waits
  refine Project.Locates.before (Ensures.whileResolving
    (fun chain again => points_cyclic ready works again) fun entered enters => ?_) fun _ _ =>
    .update
  by_cases owns : (graph.stateAt (.file path)).compositionsOf owner = []
  · rw [owns]
    exact Project.Locates.pure
  · obtain ⟨_, innermost, slots⟩ := enter_eq_ok enters
    have ready' := ready.entered works.isOpen waits enters owns
    rw [← stateAt_congr slots]
    exact Ensures.mono (locates_compositions walk locate ready' (works.entered waits enters) innermost)
      (fun _ _ _ => trivial) fun _ _ points => points.congr rfl

theorem locates_resolveImport (walk : calls.Walk project.workspace) (locate : calls.Locate project)
    (ready : project.Ready graph) (works : graph.Works project.workspace path)
    {reference : ImportReference} (listed : reference ∈ (graph.stateAt (.file path)).imports) :
    project.Locates graph (resolveImport calls (.file path) reference) := by
  have asks := ModuleState.mem_askedFor_of_import listed
  have place := (ready.locatedIn path).imports reference listed
  refine (locate.load graph _ path _ ready works asks place).bind
    (walk.load graph _ path _ works asks) ?_
  rintro handle loaded returns ⟨offers, means⟩
  have needs := returns.steps.needs ⟨_, asks, means⟩
  exact (locates_lookUp walk locate (ready.returns returns) (returns.works works) offers needs _ _ _
    place).before fun _ _ => .update

theorem locates_resolve (walk : calls.Walk project.workspace) (locate : calls.Locate project)
    (ready : project.Ready graph) (works : graph.Works project.workspace path) :
    project.Locates graph (resolve calls (.file path)) := by
  refine Ensures.stateAt ?_
  have imports : project.Locates graph
      ((graph.stateAt (.file path)).imports.forM (resolveImport calls (.file path))) := by
    refine .forM fun reference listed current returns => ?_
    have works' := returns.works works
    have listed : reference ∈ (current.stateAt (.file path)).imports := by
      rw [(returns.develops works.isOpen).sameDeclarations.imports]
      exact listed
    exact ⟨(walks_resolveImport walk works' listed).weaken fun _ _ _ _ => trivial,
      locates_resolveImport walk locate (ready.returns returns) works' listed⟩
  refine imports.bind (walks_imports walk works) ?_
  rintro _ imported returns -
  have works' := returns.works works
  have settles : imported.Returns project.workspace (imported.setState (.file path)
      ((imported.stateAt (.file path)).settleLiterals [])) :=
    .setState works'.isOpen (.settled [])
  refine Ensures.bind (Ensures.update (Ensures.stateAt ?_))
  have returns := returns.trans settles
  generalize imported.setState (.file path) ((imported.stateAt (.file path)).settleLiterals []) =
    settled at *
  have works' := settles.works works'
  refine Project.Locates.forM fun owner owned current further => ?_
  have works'' := further.works works'
  have owns : (current.stateAt (.file path)).compositions.contains owner := by
    rw [OrderedMap.contains_iff_mem_keys,
      (further.develops works'.isOpen).sameDeclarations.compositions]
    exact owned
  exact ⟨(walks_owner walk works'' owns).weaken fun _ _ _ _ => trivial,
    locate.resolveOwner current path owner (ready.returns (returns.trans further)) works''⟩

end Resolution

namespace Compilation

variable {project : Project} {calls : Calls} {graph : Graph} {importer path : Path}

/-- A file that has just been opened fails at its own nodes, or at those of the files that it
asks for. -/
theorem locates_compile (walk : calls.Walk project.workspace) (locate : calls.Locate project)
    {source : String} (text : project.text path = source)
    (ready : project.Ready (graph.opening project.workspace path source))
    (works : (graph.opening project.workspace path source).Works project.workspace path) :
    project.Locates graph (compile project.workspace (Resolution.resolve calls) path source) := by
  unfold Project.Locates Ensures
  rw [outcome_compile]
  cases collects : (project.workspace.collection path source).1 with
  | error failure =>
    intro other failed
    cases failed
    obtain ⟨file, place⟩ := (Collect.locates_run _ (parse source)).2 failure collects
    rw [file]
    refine ⟨isOpen_opening .., ?_⟩
    rw [Project.places]
    change failure.location ∈ Node.placesAll (parse (project.text path))
    rw [text]
    exact place
  | ok sheet =>
    have resolves := Resolution.locates_resolve walk locate ready works
    unfold Project.Locates Ensures at resolves
    dsimp only
    generalize outcome (Resolution.resolve calls (.file path))
      (graph.opening project.workspace path source) = ending at resolves
    obtain ⟨result, resolved⟩ := ending
    cases result with
    | error halt => exact resolves
    | ok _ => trivial

theorem locates_load (walk : calls.Walk project.workspace) (locate : calls.Locate project)
    (ready : project.Ready graph) (works : graph.Works project.workspace importer)
    {specifier : String} (asks : specifier ∈ (graph.stateAt (.file importer)).askedFor)
    {location : Location} (place : location ∈ project.places importer) :
    project.Locates graph (load project.workspace calls specifier importer location) := by
  unfold load
  cases means : project.workspace.resolver.resolve project.workspace.files specifier importer with
  | error reason => exact .fail works.isOpen place
  | ok path =>
    have needs : graph.Needs project.workspace importer path := ⟨specifier, asks, means⟩
    refine Ensures.get ?_
    dsimp only
    cases known : graph.handle? path with
    | some handle =>
      exact Project.Locates.note.before fun _ _ => Project.Locates.note.before fun _ _ => .pure
    | none =>
      have absent := absent_of_handle? known
      have resolved : graph.Returns project.workspace
          (graph.record (.resolved specifier importer path)) :=
        .note (.resolved specifier importer path)
      have works := resolved.works works
      have needs := resolved.steps.needs needs
      have ready := ready.returns resolved
      refine Ensures.bind (Ensures.note ?_)
      cases readable : project.workspace.files.read path with
      | error reason => exact Project.Locates.fail works.isOpen place
      | ok source =>
        have different := Project.ne_root_of_absent ready.rooted absent
        have taken : (graph.record (.resolved specifier importer path)).Breaks project.workspace
            (((graph.record (.resolved specifier importer path)).record (.read path)).opening
              project.workspace path source) :=
          ⟨.single (.taken works needs absent readable (.inl trivial)), resolving_opening ..⟩
        refine Ensures.bind (Ensures.note ?_)
        refine (locates_compile walk locate (Project.text_of_read different readable)
          (ready.breaks taken) (works.taken needs absent readable)).before fun _ _ => ?_
        exact Project.Locates.note.before fun _ _ => .pure

/-- Requests point at nodes of open files, however deep they may nest. -/
theorem calls_blame (project : Project) :
    (depth : Nat) → (Compilation.calls project.workspace depth).Locate project
  -- At depth 0 every request ends early, but none has failed.
  | 0 =>
    { load := fun _ _ _ _ _ _ _ _ => nofun
      resolveOwner := fun _ _ _ _ _ => nofun }
  | depth + 1 =>
    have walk := calls_walk project.workspace depth
    have deeper := calls_blame project depth
    { load := fun _ _ _ _ ready works asks place => locates_load walk deeper ready works asks place
      resolveOwner := fun _ _ owner ready works =>
        Resolution.locates_resolveOwner walk deeper ready works owner }

end Compilation

namespace Project

theorem locates_run (project : Project) :
    project.Locates .empty (Graph.compile project.workspace project.root project.source) := by
  have works := Processing.works_root project.workspace project.root project.source
  have text : project.text project.root = project.source := if_pos rfl
  have locates := Compilation.locates_compile
    (Compilation.calls_walk project.workspace
      (Compilation.depthLimit project.workspace project.opened))
    (Compilation.calls_blame project _) text project.ready_opened works
  unfold Locates Ensures at locates ⊢
  rw [Compilation.outcome_compile] at locates
  rw [Graph.compile, Compilation.outcome_compile, Compilation.outcome_resolve]
  exact locates

/-- Every failure points at the sources: it names a file that was being compiled when the run
failed, and the location of a rule, an at-rule or a declaration in the text of this file. -/
theorem failures_point_at_nodes (project : Project) {halt : Halt}
    (fails : project.run.outcome = .error halt) :
    ∃ failure, halt = .failed failure ∧
      project.run.graph.IsOpen (.file failure.file) ∧
      failure.location ∈ Node.placesAll (parse (project.text failure.file)) := by
  have ends : (outcome (Graph.compile project.workspace project.root project.source) .empty).1 ≠
      .error .exhausted := Graph.compile_ne_exhausted .empty project.root project.source
  have locates := project.locates_run
  rw [run, Processing.run_eq] at fails ⊢
  unfold Locates Ensures at locates
  generalize outcome (Graph.compile project.workspace project.root project.source) .empty =
    ending at ends locates fails
  obtain ⟨result, after⟩ := ending
  cases result with
  | ok compiled => cases fails
  | error other =>
    cases fails
    cases halt with
    | exhausted => exact absurd rfl ends
    | failed failure => exact ⟨failure, rfl, locates failure rfl⟩

/-- A file that asks for a class of another one, which composes a class of the first file that
composes a missing name. -/
def detour : Project where
  workspace :=
    { options := { Options.standard with namePattern := .template "[local]" }
      files := .ofList .top [("/a.css", ""), ("/b.css", ".b\x7bcomposes:c from './a.css'\x7d")]
      resolver := .nearest }
  root := .parse "/a.css"
  source := ".a\x7bcomposes:b from './b.css'\x7d.c\x7bcomposes:nope\x7d"

/-- The missing name is reported where it is composed, although the other file asks for it. -/
theorem detour_points_home : ∃ failure, detour.run.outcome = .error (.failed failure) ∧
    failure.file = detour.root ∧ failure.cause = .missingExport "nope" "/a.css" ∧
    failure.location ∈ Node.placesAll (parse detour.source) := by
  have fails : detour.run.outcome = .error (.failed
      ⟨.parse "/a.css", ⟨32, 1, 33⟩, .missingExport "nope" "/a.css"⟩) := by decide +kernel
  obtain ⟨failure, same, -, place⟩ := failures_point_at_nodes detour fails
  cases same
  exact ⟨_, fails, rfl, rfl, place⟩

end Project

end ScopedStyles
