import Mathlib.Data.List.Perm.Subperm
import ScopedStyles.Proofs.Caching.Transparency
import ScopedStyles.Proofs.Graph.Deepening
import ScopedStyles.Proofs.Graph.Origins

/-!
Processing ends, and its requests nest no deeper than a number that can be computed from the files.
A file that is taken has not been taken before, and a name that is entered waits and is not being
resolved; so at any moment the open files and the names being resolved are different things, of
which the files have only so many.
-/

namespace ScopedStyles

open Compiling

namespace Graph

variable {workspace : Workspace} {doomed : Prop} {graph after : Graph}

def openSites (graph : Graph) : List Site :=
  graph.slots.keys.filter fun site =>
    match graph.slots.get? site with
    | some (.inFlight _) => true
    | _ => false

/-- How deep requests nest: one level for each file that is being compiled, and one for each name
that is being resolved. -/
def nesting (graph : Graph) : Nat :=
  graph.openSites.length + graph.resolving.length

theorem mem_openSites {site : Site} : site ∈ graph.openSites ↔ graph.IsOpen site := by
  rw [openSites, List.mem_filter]
  constructor
  · rintro ⟨_, isOpen⟩
    cases found : graph.slots.get? site with
    | none => simp [found] at isOpen
    | some slot =>
      cases slot with
      | inFlight state => exact ⟨state, found⟩
      | finished => simp [found] at isOpen
  · intro isOpen
    refine ⟨mem_keys_of_isOpen isOpen, ?_⟩
    obtain ⟨state, found⟩ := isOpen
    rw [found]

theorem Step.nodup_resolving (step : graph.Step workspace doomed after)
    (nodup : graph.resolving.Nodup) : after.resolving.Nodup := by
  cases step with
  | entered _ _ enters => exact nodup_resolving_enter enters nodup
  | left => exact nodup.sublist (List.dropLast_sublist _)
  | taken =>
    rw [resolving_opening]
    exact nodup
  | _ => exact nodup

end Graph

namespace Project

variable {project : Project} {graph after : Graph} {path : Path} {doomed : Prop}

/-- The text of the root, and the files that can be read. -/
def texts (project : Project) : List (Path × String) :=
  (project.root, project.source) :: project.workspace.files.contents.entries

/-- How deep requests can nest: one level for each of these texts, and one for each name that can
wait in it. -/
def nestingLimit (project : Project) : Nat :=
  Compilation.total (project.texts.map fun (path, source) =>
    1 + Compilation.waitingIn (project.workspace.context path source))

/-- What requests can nest in: these files, and the names that can wait in them. -/
def things (project : Project) : List (Site × Option String) :=
  project.texts.flatMap (Graph.thingsOf project.workspace)

theorem length_things (project : Project) : project.things.length = project.nestingLimit := by
  rw [things, nestingLimit, Graph.length_flatMap_eq_total]
  congr 1
  apply List.map_congr_left
  intro file _
  rw [Graph.thingsOf, List.length_cons, Graph.namesOf, List.length_map,
    ModuleState.length_waitingNames, Nat.add_comm]
  rfl

theorem collected_root (project : Project) : project.collected project.root =
    (project.workspace.collection project.root project.source).2.state := by
  rw [collected, text, if_pos rfl]

theorem depthLimit_opened (project : Project) :
    Compilation.depthLimit project.workspace project.opened = project.nestingLimit := by
  have slots : project.opened.slots.values = [.inFlight (project.collected project.root)] := by
    rw [opened, Graph.opening, Graph.slots_foldl_record, collected_root]
    simp [Graph.setState, Graph.record, Graph.empty, OrderedMap.values, OrderedMap.insert,
      OrderedMap.empty, OrderedMap.writeEntry]
  have root : Compilation.waiting (project.collected project.root) =
      Compilation.waitingIn (project.workspace.context project.root project.source) := by
    rw [collected_root]
    rfl
  rw [Compilation.depthLimit, slots, nestingLimit, texts, List.map_cons, List.map_cons, List.map_nil]
  simp only [Compilation.total, List.foldr_cons, List.foldr_nil, Slot.state, root]
  omega

/-! ## What nests at any moment -/

/-- The files that have slots are there to be compiled, and the names that are being resolved are
different names that can wait in their files. -/
structure Nests (project : Project) (graph : Graph) : Prop extends project.Grows graph where
  known : ∀ site slot, graph.slots.get? site = some slot →
    ∃ path, site = .file path ∧ (path, project.text path) ∈ project.texts
  distinct : graph.resolving.Nodup
  names : ∀ entry ∈ graph.resolving, (entry.1, project.text entry.1) ∈ project.texts ∧
    (project.collected entry.1).CanWait entry.2

theorem nests_opened (project : Project) : project.Nests project.opened where
  toGrows := project.grows_opened
  known site slot found := by
    rw [opened, Graph.get?_opening] at found
    split at found
    · rename_i isRoot
      refine ⟨_, isRoot, ?_⟩
      rw [text, if_pos rfl]
      exact List.mem_cons_self
    · cases found
  distinct := by
    rw [opened, Graph.resolving_opening]
    exact .nil
  names entry member := by
    rw [opened, Graph.resolving_opening] at member
    cases member

theorem Nests.step (nests : project.Nests graph)
    (step : graph.Step project.workspace doomed after) : project.Nests after where
  toGrows := nests.toGrows.step step
  known site slot found := by
    cases earlier : graph.slots.get? site with
    | some before => exact nests.known site before earlier
    | none =>
      obtain ⟨path, source, rfl, readable, _, _⟩ := step.added earlier found
      refine ⟨path, rfl, ?_⟩
      rw [text_of_read (ne_root_of_absent nests.rooted earlier) readable]
      exact List.mem_cons_of_mem _ (Graph.entry_of_read readable)
  distinct := step.nodup_resolving nests.distinct
  names entry member := by
    rcases step.resolving member with earlier | ⟨⟨state, found⟩, waits, _⟩
    · exact nests.names entry earlier
    · obtain ⟨_, isFile, known⟩ := nests.known _ _ found
      cases isFile
      rw [Graph.stateAt_of_get? found] at waits
      exact ⟨known, (nests.develops entry.1 _ found).canWait (.inl waits)⟩

theorem Nests.steps (nests : project.Nests graph)
    (steps : graph.Steps project.workspace doomed after) : project.Nests after :=
  steps.keeps (fun step nests => nests.step step) nests

/-- The open files and the names that are being resolved are different things. -/
theorem Nests.le_nestingLimit (nests : project.Nests graph) (distinct : graph.slots.keys.Nodup) :
    graph.nesting ≤ project.nestingLimit := by
  -- Both are counted among the things of the project, a file as a site without a name.
  have sites : (graph.openSites.map fun site => (site, (none : Option String))).Nodup :=
    List.Nodup.map (fun _ _ => congrArg Prod.fst) (distinct.filter _)
  have names : (graph.resolving.map fun entry => (Site.file entry.1, some entry.2)).Nodup := by
    refine List.Nodup.map (fun left right equal => ?_) nests.distinct
    simp only [Prod.mk.injEq, Site.file.injEq, Option.some.injEq] at equal
    exact Prod.ext equal.1 equal.2
  have apart : List.Disjoint (graph.openSites.map fun site => (site, (none : Option String)))
      (graph.resolving.map fun entry => (Site.file entry.1, some entry.2)) := by
    intro thing isSite isName
    obtain ⟨_, _, rfl⟩ := List.mem_map.mp isSite
    obtain ⟨_, _, equal⟩ := List.mem_map.mp isName
    cases equal
  have all := sites.append names apart
  have there : graph.openSites.map (fun site => (site, (none : Option String))) ++
      graph.resolving.map (fun entry => (Site.file entry.1, some entry.2)) ⊆ project.things := by
    intro thing member
    rw [things, List.mem_flatMap]
    obtain isSite | isName := List.mem_append.mp member
    · obtain ⟨site, isOpen, rfl⟩ := List.mem_map.mp isSite
      obtain ⟨state, found⟩ := Graph.mem_openSites.mp isOpen
      obtain ⟨path, rfl, known⟩ := nests.known _ _ found
      exact ⟨_, known, List.mem_cons_self⟩
    · obtain ⟨entry, isResolved, rfl⟩ := List.mem_map.mp isName
      obtain ⟨known, waits⟩ := nests.names entry isResolved
      exact ⟨_, known, List.mem_cons_of_mem _ (Graph.mem_namesOf waits)⟩
  have counted := (List.subperm_of_subset all there).length_le
  rwa [length_things, List.length_append, List.length_map, List.length_map] at counted

/-! ## Runs -/

/-- Compile the root of a project with requests that may nest up to a depth. -/
def compiledAt (project : Project) (depth : Nat) : Except Halt CompiledModule × Graph :=
  outcome (Compilation.compile project.workspace
    (Resolution.resolve (Compilation.calls project.workspace depth)) project.root project.source)
    .empty

/-- Requests that may nest deep enough compile the root as it is compiled on its own. -/
theorem compiledAt_eq (project : Project) {depth : Nat} (le : project.nestingLimit ≤ depth) :
    project.compiledAt depth =
      outcome (Graph.compile project.workspace project.root project.source) .empty := by
  have ends : (outcome (Graph.compile project.workspace project.root project.source) .empty).1 ≠
      .error .exhausted := Graph.compile_ne_exhausted .empty project.root project.source
  have bounded : outcome (Graph.compile project.workspace project.root project.source) .empty =
      project.compiledAt project.nestingLimit := by
    rw [Graph.outcome_compile, ← depthLimit_opened]
    rfl
  rw [bounded] at ends ⊢
  exact Compilation.outcome_compile_deeper project.workspace le ends

/-- Compilations that are alike step by step come to ends that are alike. -/
theorem ends_of_keeps {likeness : Likeness} {first second : Workspace}
    (keeps : likeness.Keeps first second) {path : Path} {source : String}
    (starts : likeness.Follows Eq .empty .empty (Compilation.start path) (Compilation.start path))
    (texts : likeness.texts path source) :
    likeness.Ends (likeness.modules path) (outcome (Graph.compile first path source) .empty)
      (outcome (Graph.compile second path source) .empty) := by
  let project : Project := ⟨first, path, source⟩
  let other : Project := ⟨second, path, source⟩
  let limit := max project.nestingLimit other.nestingLimit
  have same : project.compiledAt limit = _ := compiledAt_eq project (Nat.le_max_left ..)
  have otherSame : other.compiledAt limit = _ := compiledAt_eq other (Nat.le_max_right ..)
  rw [← same, ← otherSame]
  have follow := Compilation.follow_calls keeps limit
  exact Compilation.follows_compile keeps starts texts fun _ _ alike =>
    Resolution.follows_resolve keeps follow alike _

/-- Processing ends, for whatever files: requests that may nest as deep as the files have texts and
names come to a result, which is the same however deep they may nest; and at no moment are more
files open and names being resolved than there are texts and names. -/
theorem processing_terminates (project : Project) :
    (∀ depth, project.nestingLimit ≤ depth →
      project.compiledAt depth =
        outcome (Graph.compile project.workspace project.root project.source) .empty ∧
      (project.compiledAt depth).1 ≠ .error .exhausted) ∧
    project.run.outcome ≠ .error .exhausted ∧
    (∀ graph, project.opened.Steps project.workspace True graph →
      graph.nesting ≤ project.nestingLimit) ∧
    project.opened.Steps project.workspace True project.run.graph := by
  have ends : (outcome (Graph.compile project.workspace project.root project.source) .empty).1 ≠
      .error .exhausted := Graph.compile_ne_exhausted .empty project.root project.source
  refine ⟨fun depth le => ?_, fun exhausted => ends ?_, fun graph steps => ?_, ?_⟩
  · have same := compiledAt_eq project le
    exact ⟨same, same ▸ ends⟩
  · rw [run, Processing.run_eq] at exhausted
    generalize outcome (Graph.compile project.workspace project.root project.source) .empty =
      ending at exhausted
    obtain ⟨result, after⟩ := ending
    cases result with
    | ok compiled => cases exhausted
    | error halt =>
      cases exhausted
      rfl
  · have accounted := steps.accounted (.opening_empty ..)
    have filed := steps.filed (Processing.works_root ..).filed
    exact (project.nests_opened.steps steps).le_nestingLimit
      (accounted.processesOnce filed).slots.1
  · exact Processing.steps_run ..

/-- Two files that compose each other's classes. -/
def knot : Project where
  workspace :=
    { options := { Options.standard with namePattern := .template "[local]" }
      files := .ofList .top [("/a.css", ".a\x7bcomposes:b from './b.css'\x7d"),
        ("/b.css", ".b\x7bcomposes:a from './a.css'\x7d")]
      resolver := .nearest }
  root := .parse "/a.css"
  source := ".a\x7bcomposes:b from './b.css'\x7d"

theorem knot_terminates : knot.nestingLimit = 6 ∧
    (knot.compiledAt 10).1 ≠ .error .exhausted ∧ knot.compiledAt 10 = knot.compiledAt 6 ∧
    knot.run.graph.nesting ≤ 6 := by
  have limit : knot.nestingLimit = 6 := by decide +kernel
  obtain ⟨ends, _, nests, steps⟩ := processing_terminates knot
  have ten := ends 10 (by omega)
  have six := ends 6 (by omega)
  exact ⟨limit, ten.2, ten.1.trans six.1.symm, limit ▸ nests _ steps⟩

end Project

end ScopedStyles
