import ScopedStyles.Proofs.Graph.Origins

/-!
Finished files are listed dependencies first. A file that is handed out as finished has come to its
end before, while its importer is still at work; and where files do not load each other in a circle,
no file is handed out before it is finished.
-/

namespace ScopedStyles

open Compiling

namespace Graph

variable {workspace : Workspace} {doomed : Prop} {graph after : Graph} {root : Path}

/-- At the time when a file is handed out, its importer has begun but not come to its end, and the
file has come to its end if it is handed out as finished. -/
def HandsOut (events : List GraphEvent) : Prop :=
  ∀ before rest path importer (isFinished : Bool),
    events = before ++ .handed path importer isFinished :: rest →
    .started importer ∈ before ∧ .finished importer ∉ before ∧
      (isFinished → .finished path ∈ before)

theorem HandsOut.append {events added : List GraphEvent} (handsOut : HandsOut events)
    (later : ∀ path importer (isFinished : Bool), .handed path importer isFinished ∈ added →
      added = [.handed path importer isFinished] ∧ .started importer ∈ events ∧
        .finished importer ∉ events ∧ (isFinished → .finished path ∈ events)) :
    HandsOut (events ++ added) := by
  intro before rest path importer isFinished equal
  -- The event stands among those that have been added, or among the earlier ones.
  obtain ⟨between, split, noted⟩ | ⟨between, split, noted⟩ := List.append_eq_append_iff.mp equal
  · obtain ⟨alone, holds⟩ := later path importer isFinished (by simp [noted])
    have lengths := congrArg List.length (alone.symm.trans noted)
    simp only [List.length_append, List.length_cons, List.length_nil] at lengths
    obtain rfl := List.eq_nil_of_length_eq_zero (by omega : between.length = 0)
    rwa [split, List.append_nil]
  · cases between with
    | nil =>
      rw [List.nil_append] at noted
      obtain ⟨_, holds⟩ := later path importer isFinished (noted ▸ List.mem_cons_self)
      rwa [split, List.append_nil] at holds
    | cons event between =>
      cases noted
      exact handsOut before between path importer isFinished split

theorem mem_starts {path : Path} : path ∈ graph.starts ↔ .started path ∈ graph.events := by
  simp only [starts, List.mem_filterMap]
  constructor
  · rintro ⟨_ | _, member, equal⟩ <;> simp_all [GraphEvent.started?]
  · exact fun member => ⟨_, member, rfl⟩

theorem mem_finishes {path : Path} : path ∈ graph.finishes ↔ .finished path ∈ graph.events := by
  simp only [finishes, List.mem_filterMap]
  constructor
  · rintro ⟨_ | _, member, equal⟩ <;> simp_all [GraphEvent.finished?]
  · exact fun member => ⟨_, member, rfl⟩

namespace Accounted

variable {path : Path}

theorem unfinished_of_isOpen (accounted : graph.Accounted root)
    (isOpen : graph.IsOpen (.file path)) : .finished path ∉ graph.events := by
  rw [← mem_finishes, accounted.finished]
  intro member
  obtain ⟨compiled, isFinished, isPath⟩ := List.mem_map.mp member
  exact accounted.path_ne_of_isOpen isOpen isFinished isPath

theorem started_of_isOpen (accounted : graph.Accounted root)
    (isOpen : graph.IsOpen (.file path)) : .started path ∈ graph.events := by
  rw [← mem_starts, ← accounted.has_iff]
  exact (OrderedMap.contains_iff_mem_keys _ _).mpr (mem_keys_of_isOpen isOpen)

theorem finished_of_handle? (accounted : graph.Accounted root) {handle : Handle}
    (filed : graph.Filed) (known : graph.handle? path = some handle) (isReady : handle.isReady) :
    .finished path ∈ graph.events := by
  cases handle with
  | inFlight other => cases isReady
  | ready compiled =>
    obtain ⟨offers, rfl⟩ := offers_of_handle? filed known
    rw [← mem_finishes, accounted.finished]
    exact List.mem_map_of_mem ((accounted.closed compiled).mpr offers)

end Accounted

theorem Step.handsOut (step : graph.Step workspace doomed after)
    (accounted : graph.Accounted root) (handsOut : HandsOut graph.events) :
    HandsOut after.events := by
  obtain ⟨added, events, reports⟩ := step.events
  rw [events]
  refine handsOut.append fun path importer isFinished member => ?_
  obtain ⟨alone, happens⟩ := reports _ member rfl
  cases happens with
  | handed works _ known =>
    exact ⟨alone, accounted.started_of_isOpen works.isOpen,
      accounted.unfinished_of_isOpen works.isOpen,
      accounted.finished_of_handle? works.filed known⟩

theorem Steps.handsOut (steps : graph.Steps workspace doomed after)
    (accounted : graph.Accounted root) (handsOut : HandsOut graph.events) :
    HandsOut after.events := by
  induction steps with
  | refl => exact handsOut
  | tail before step induction =>
    exact step.handsOut (Steps.accounted before accounted) induction

theorem handsOut_opening (workspace : Workspace) (root : Path) (source : String) :
    HandsOut (Graph.empty.opening workspace root source).events := by
  intro before rest path importer isFinished equal
  have member : GraphEvent.handed path importer isFinished ∈
      (Graph.empty.opening workspace root source).events := by simp [equal]
  rw [events_opening] at member
  simp [Graph.empty, events] at member

end Graph

/-! ## Files that do not load each other in a circle -/

namespace Project

variable {project : Project} {graph after : Graph}

/-- All files have been handed out as finished. -/
def HandsOutFinished (events : List GraphEvent) : Prop :=
  ∀ path importer isFinished, .handed path importer isFinished ∈ events → isFinished = true

/-- An open file at work loads no open file, unless files load each other in a circle. -/
theorem Acyclic.isReady (acyclic : project.Acyclic) (collects : project.Collects graph)
    {path importer : Path} (works : graph.Works project.workspace importer)
    (needs : graph.Needs project.workspace importer path) {handle : Handle}
    (known : graph.handle? path = some handle) : handle.isReady := by
  cases handle with
  | ready compiled => rfl
  | inFlight other =>
    obtain ⟨isOpen, rfl⟩ := Graph.offers_of_handle? works.filed known
    have leads := (works.leads other isOpen).lift id fun _ _ => collects.requires
    exact absurd (Relation.TransGen.tail' leads (collects.requires needs)) (acyclic other)

theorem Acyclic.step (acyclic : project.Acyclic) (collects : project.Collects graph)
    (step : graph.Step project.workspace False after) (finished : HandsOutFinished graph.events) :
    HandsOutFinished after.events := by
  obtain ⟨added, events, reports⟩ := step.events
  intro path importer isFinished member
  rw [events, List.mem_append] at member
  obtain earlier | last := member
  · exact finished path importer isFinished earlier
  · obtain ⟨_, happens⟩ := reports _ last rfl
    cases happens with
    | handed works needs known => exact acyclic.isReady collects works needs known

theorem Acyclic.steps (acyclic : project.Acyclic) (collects : project.Collects graph)
    (steps : graph.Steps project.workspace False after)
    (finished : HandsOutFinished graph.events) : HandsOutFinished after.events := by
  induction steps with
  | refl => exact finished
  | tail before step induction => exact acyclic.step (collects.steps before) step induction

end Project

/-! ## Runs -/

namespace Graph.Accounted

variable {graph : Graph} {root path later : Path}

theorem sublist_order (accounted : graph.Accounted root) {before rest : List GraphEvent}
    (split : graph.events = before ++ rest) (first : .finished path ∈ before)
    (second : .finished later ∈ rest) : [path, later].Sublist graph.order := by
  have finished : graph.order =
      before.filterMap GraphEvent.finished? ++ rest.filterMap GraphEvent.finished? := by
    rw [← accounted.finished, finishes, split, List.filterMap_append]
  have isFirst : [path].Sublist (before.filterMap GraphEvent.finished?) :=
    List.singleton_sublist.mpr (List.mem_filterMap.mpr ⟨_, first, rfl⟩)
  have isSecond : [later].Sublist (rest.filterMap GraphEvent.finished?) :=
    List.singleton_sublist.mpr (List.mem_filterMap.mpr ⟨_, second, rfl⟩)
  rw [finished]
  exact isFirst.append isSecond

end Graph.Accounted

namespace Project

variable {project : Project}

theorem steps_run (project : Project) :
    project.opened.Steps project.workspace True project.run.graph :=
  Processing.steps_run project.workspace project.root project.source

theorem accounted_run (project : Project) : project.run.graph.Accounted project.root :=
  Processing.accounted_run project.workspace project.root project.source

theorem handsOut_run (project : Project) : Graph.HandsOut project.run.graph.events := by
  apply project.steps_run.handsOut (.opening_empty ..)
  exact Graph.handsOut_opening project.workspace project.root project.source

theorem handsOutFinished_run (acyclic : project.Acyclic) {resolved : Graph} {sheet : Stylesheet}
    (arrives : Processing.Arrives project.workspace project.root project.source resolved sheet) :
    HandsOutFinished project.run.graph.events := by
  apply acyclic.steps (collects_opened arrives.collects) arrives.steps
  intro path importer isFinished member
  rw [opened, Graph.events_opening] at member
  simp [Graph.empty, Graph.events] at member

/-- What a file was handed out for is listed after the file. -/
structure InOrder (project : Project) (file : ProcessedFile) : Prop where
  /-- The files that have been asked for are listed, each once. -/
  lists : project.run.graph.order.Nodup ∧
    ∀ path, project.run.graph.has path ↔ path ∈ project.run.graph.order
  /-- Every file is listed after everything it loads. -/
  loads : ∀ path importer isFinished,
    .handed path importer isFinished ∈ project.run.graph.events →
    [path, importer].Sublist project.run.graph.order
  /-- The sheets of the dependencies are bundled in this order, and the sheet of the root comes
  last. -/
  bundles : ∃ others root, project.run.graph.finished = others ++ [root] ∧
    root.path = project.root ∧
    (project.workspace.options.inlineDependencies → file.css = render
      ((if project.workspace.options.emitExportRule then [file.exported.toRule] else []) ++
        others.flatMap CompiledModule.sheet ++ root.sheet))

/-- Finished files are listed dependencies first. Where files do not load each other in a circle,
this order is topological, and it is the order in which sheets are bundled. -/
theorem dependencies_are_listed_first (project : Project) :
    (∀ before rest path importer other,
      project.run.graph.events = before ++ .finished path :: rest →
      .handed other importer true ∈ before →
      [other, path].Sublist project.run.graph.order) ∧
    (project.Acyclic → ∀ file, project.run.outcome = .ok file → project.InOrder file) := by
  have accounted := project.accounted_run
  have handsOut := project.handsOut_run
  refine ⟨?_, fun acyclic file succeeds => ?_⟩
  · intro before rest path importer other equal handed
    obtain ⟨earlier, between, split⟩ := List.append_of_mem handed
    rw [split, List.append_assoc] at equal
    obtain ⟨_, _, finished⟩ := handsOut _ _ _ _ _ equal
    exact accounted.sublist_order equal (finished rfl) (by simp)
  obtain ⟨resolved, sheet, arrives⟩ := Processing.arrives_of_succeeds succeeds
  refine ⟨⟨accounted.once, arrives.mem_order⟩, ?_, ?_⟩
  · intro path importer isFinished handed
    obtain ⟨before, rest, split⟩ := List.append_of_mem handed
    obtain ⟨started, unfinished, finished⟩ := handsOut _ _ _ _ _ split
    have isFinished := handsOutFinished_run acyclic arrives path importer isFinished handed
    have known : importer ∈ project.run.graph.order :=
      (arrives.mem_order importer).mp (accounted.has_iff.mpr
        (Graph.mem_starts.mpr (split ▸ List.mem_append_left _ started)))
    rw [← accounted.finished, Graph.mem_finishes, split, List.mem_append] at known
    exact accounted.sublist_order split (finished isFinished) (known.resolve_left unfinished)
  · refine ⟨_, _, arrives.finished, rfl, fun inlines => ?_⟩
    rw [run, arrives.outcome] at succeeds
    cases succeeds
    change render (Processing.assemble _ _ (Processing.dependencies _ project.root) _) = _
    rw [arrives.dependencies, Processing.assemble, if_pos inlines]
    rfl

/-- A page that takes values from two files, one of which takes its value from the other. -/
def page : Project where
  workspace :=
    { options := { Options.standard with
        namePattern := .template "[local]", inlineDependencies := true }
      files := .ofList .top [("/base.css", ":export\x7bb:1\x7d"),
        ("/tile.css", ":import('./base.css')\x7bb:b\x7d:export\x7bt:b\x7d")]
      resolver := .nearest }
  root := .parse "/page.css"
  source := ":import('./tile.css')\x7bt:t\x7d:import('./base.css')\x7bb:b\x7d"

theorem page_in_order :
    page.Acyclic ∧ (∃ file, page.run.outcome = .ok file ∧ page.InOrder file) ∧
      page.run.graph.order.map Path.text = ["/base.css", "/tile.css", "/page.css"] ∧
      [Path.parse "/base.css", page.root].Sublist page.run.graph.order := by
  have acyclic : page.Acyclic := by
    apply acyclic_of_file_rank fun path => ["/base.css", "/tile.css", "/page.css"].idxOf path.text
    decide +kernel
  have runs : page.run.outcome.toOption.isSome ∧
      page.run.graph.order.map Path.text = ["/base.css", "/tile.css", "/page.css"] ∧
      page.run.graph.events = page.run.graph.events.dropLast ++ [.finished page.root] ∧
      .handed (.parse "/base.css") page.root true ∈ page.run.graph.events.dropLast := by
    decide +kernel
  obtain ⟨isSome, order, split, handed⟩ := runs
  obtain ⟨first, topological⟩ := dependencies_are_listed_first page
  refine ⟨acyclic, ?_, order, first _ _ _ _ _ split handed⟩
  cases succeeds : page.run.outcome with
  | error halt =>
    rw [succeeds] at isSome
    cases isSome
  | ok file => exact ⟨file, rfl, topological acyclic file succeeds⟩

end Project

end ScopedStyles
