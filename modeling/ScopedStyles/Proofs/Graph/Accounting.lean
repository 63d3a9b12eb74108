import Mathlib.Data.List.Nodup
import ScopedStyles.Proofs.Graph.Arriving

/-!
Every file is processed at most once. The events of a graph account for its slots: the files whose
compilation has begun are those that have a slot, in the order of the slots; all of them but the
root have been read, in the same order; and the finished files are those whose slots are closed.
Every step keeps the account.
-/

namespace ScopedStyles

open Compiling

/-! ## Events -/

namespace GraphEvent

def started? : GraphEvent → Option Path
  | .started path => some path
  | _ => none

def read? : GraphEvent → Option Path
  | .read path => some path
  | _ => none

def finished? : GraphEvent → Option Path
  | .finished path => some path
  | _ => none

/-- Whether an event tells what a file hands out or answers. -/
def isReport : GraphEvent → Bool
  | .handed .. | .answered .. => true
  | _ => false

end GraphEvent

namespace Graph

variable {workspace : Workspace} {doomed : Prop} {graph after : Graph} {path root : Path}

/-- The files whose compilation has begun, in order. -/
def starts (graph : Graph) : List Path :=
  graph.events.filterMap GraphEvent.started?

/-- The files that have been read, in order. -/
def filesRead (graph : Graph) : List Path :=
  graph.events.filterMap GraphEvent.read?

/-- The files whose compilation has come to its end, in order. -/
def finishes (graph : Graph) : List Path :=
  graph.events.filterMap GraphEvent.finished?

/-- The finished files, in the order in which they have been finished. -/
def order (graph : Graph) : List Path :=
  graph.finished.map CompiledModule.path

@[simp] theorem events_record (graph : Graph) (event : GraphEvent) :
    (graph.record event).events = graph.events ++ [event] := by
  simp [events, record]

@[simp] theorem events_setState (graph : Graph) (site : Site) (state : ModuleState) :
    (graph.setState site state).events = graph.events := rfl

@[simp] theorem events_leave (graph : Graph) : graph.leave.events = graph.events ++ [.left] := by
  simp [events, leave]

theorem events_enter {entered : Graph} {name : String}
    (enters : graph.enter path name = .ok entered) :
    entered.events = graph.events ++ [.entered path name] := by
  unfold enter at enters
  split at enters
  · cases enters
  · cases enters
    simp [events]

theorem finished_enter {entered : Graph} {name : String}
    (enters : graph.enter path name = .ok entered) : entered.finished = graph.finished := by
  unfold enter at enters
  split at enters
  · cases enters
  · cases enters
    rfl

@[simp] theorem events_closing (graph : Graph) (workspace : Workspace) (path : Path)
    (sheet : Stylesheet) :
    (graph.closing workspace path sheet).events = graph.events ++ [.finished path] := by
  simp [events, closing, record, finish]

theorem events_foldl_record {rules : List ι} (event : ι → GraphEvent) (graph : Graph) :
    (rules.foldl (fun graph rule => graph.record (event rule)) graph).events =
      graph.events ++ rules.map event := by
  induction rules generalizing graph with
  | nil => simp
  | cons rule rest induction => simp [induction]

/-- Opening a file begins its compilation; everything else it notes are malformed rules. -/
theorem events_opening (graph : Graph) (workspace : Workspace) (path : Path) (source : String) :
    (graph.opening workspace path source).events =
      graph.events ++ .started path ::
        (workspace.collection path source).2.malformed.map fun rule =>
          .malformedValue path rule.1 rule.2 := by
  simp [opening, events_foldl_record]

/-- What is selected of the events of a graph in which a file has been opened. -/
theorem filterMap_events_opening {select? : GraphEvent → Option β}
    (ignores : ∀ path location params, select? (.malformedValue path location params) = none)
    (graph : Graph) (workspace : Workspace) (path : Path) (source : String) :
    (graph.opening workspace path source).events.filterMap select? =
      (graph.events ++ [GraphEvent.started path]).filterMap select? := by
  simp [events_opening, List.filterMap_cons, ignores]

/-- Events are only added. What files hand out or answer is noted by itself. -/
theorem Step.events (step : graph.Step workspace doomed after) :
    ∃ added, after.events = graph.events ++ added ∧
      ∀ event ∈ added, event.isReport → added = [event] ∧ graph.Happens workspace event := by
  cases step with
  | @noted event happens =>
    refine ⟨[event], events_record .., fun other member _ => ?_⟩
    obtain rfl := List.mem_singleton.mp member
    exact ⟨rfl, happens⟩
  | entered _ _ enters => exact ⟨_, events_enter enters, by simp [GraphEvent.isReport]⟩
  | left => exact ⟨_, events_leave _, by simp [GraphEvent.isReport]⟩
  | altered => exact ⟨[], by simp⟩
  | taken =>
    refine ⟨_, by rw [events_opening, events_record, List.append_assoc], fun event member => ?_⟩
    simp only [List.cons_append, List.nil_append, List.mem_cons, List.mem_map] at member
    rcases member with rfl | rfl | ⟨_, _, rfl⟩ <;> exact nofun
  | closed => exact ⟨_, events_closing .., by simp [GraphEvent.isReport]⟩

/-! ## Slots -/

theorem mem_keys_of_isOpen {site : Site} (isOpen : graph.IsOpen site) :
    site ∈ graph.slots.keys := by
  obtain ⟨state, found⟩ := isOpen
  exact (OrderedMap.contains_iff_mem_keys _ _).mp
    ((OrderedMap.contains_iff_get? _ _).mpr ⟨_, found⟩)

theorem keys_setState {site : Site} (isOpen : graph.IsOpen site) (state : ModuleState) :
    (graph.setState site state).slots.keys = graph.slots.keys :=
  (OrderedMap.keys_insert ..).trans (if_pos (mem_keys_of_isOpen isOpen))

theorem keys_closing (isOpen : graph.IsOpen (.file path)) (sheet : Stylesheet) :
    (graph.closing workspace path sheet).slots.keys = graph.slots.keys :=
  (OrderedMap.keys_insert ..).trans (if_pos (mem_keys_of_isOpen isOpen))

theorem keys_opening (absent : graph.slots.get? (.file path) = none) (source : String) :
    (graph.opening workspace path source).slots.keys = graph.slots.keys ++ [.file path] := by
  have unknown : Site.file path ∉ graph.slots.keys := by
    rw [← OrderedMap.contains_iff_mem_keys, OrderedMap.contains, absent]
    simp
  have opened : (graph.setState (.file path) .empty).slots.keys =
      graph.slots.keys ++ [.file path] :=
    (OrderedMap.keys_insert ..).trans (if_neg unknown)
  rw [opening, slots_foldl_record]
  refine (OrderedMap.keys_insert ..).trans ?_
  change (if _ ∈ (graph.setState (.file path) .empty).slots.keys then _ else _) = _
  rw [opened, if_pos (by simp)]
  exact opened

theorem finished_opening (graph : Graph) (workspace : Workspace) (path : Path)
    (source : String) : (graph.opening workspace path source).finished = graph.finished := by
  have kept : ∀ (rules : List (Location × String)) (graph : Graph),
      (rules.foldl (fun graph rule => graph.record (.malformedValue path rule.1 rule.2))
        graph).finished = graph.finished := by
    intro rules
    induction rules with
    | nil => exact fun _ => rfl
    | cons rule rest induction => exact fun graph => induction (graph.record _)
  exact kept _ _

/-! ## The account -/

/-- The events of a graph account for its slots. -/
structure Accounted (root : Path) (graph : Graph) : Prop where
  started : graph.slots.keys = graph.starts.map .file
  distinct : graph.starts.Nodup
  read : graph.starts = root :: graph.filesRead
  finished : graph.finishes = graph.order
  closed : ∀ compiled, compiled ∈ graph.finished ↔
    graph.slots.get? (.file compiled.path) = some (.finished compiled)
  once : graph.order.Nodup

namespace Accounted

theorem quiet (accounted : graph.Accounted root) {added : List GraphEvent}
    (events : after.events = graph.events ++ added)
    (starts : added.filterMap GraphEvent.started? = [])
    (filesRead : added.filterMap GraphEvent.read? = [])
    (finishes : added.filterMap GraphEvent.finished? = [])
    (keys : after.slots.keys = graph.slots.keys) (finished : after.finished = graph.finished)
    (closed : ∀ site compiled, after.slots.get? site = some (.finished compiled) ↔
      graph.slots.get? site = some (.finished compiled)) : after.Accounted root := by
  have starts : after.starts = graph.starts := by simp [Graph.starts, events, starts]
  have filesRead : after.filesRead = graph.filesRead := by simp [Graph.filesRead, events, filesRead]
  have finishes : after.finishes = graph.finishes := by simp [Graph.finishes, events, finishes]
  constructor
  · rw [keys, starts, accounted.started]
  · rw [starts]
    exact accounted.distinct
  · rw [starts, filesRead, accounted.read]
  · rw [finishes, order, finished, accounted.finished, order]
  · intro compiled
    rw [finished, closed, accounted.closed]
  · rw [order, finished]
    exact accounted.once

theorem setState (accounted : graph.Accounted root) {site : Site} (isOpen : graph.IsOpen site)
    (state : ModuleState) : (graph.setState site state).Accounted root := by
  refine accounted.quiet (List.append_nil _).symm rfl rfl rfl (keys_setState isOpen state) rfl ?_
  intro other compiled
  obtain ⟨earlier, found⟩ := isOpen
  by_cases equal : other = site <;> simp [get?_setState, equal, found]

theorem not_mem_starts (accounted : graph.Accounted root)
    (absent : graph.slots.get? (.file path) = none) : path ∉ graph.starts := by
  intro member
  have known : Site.file path ∈ graph.slots.keys := by
    rw [accounted.started]
    exact List.mem_map_of_mem member
  rw [← OrderedMap.contains_iff_mem_keys, OrderedMap.contains, absent] at known
  cases known

theorem opening (accounted : graph.Accounted root)
    (absent : graph.slots.get? (.file path) = none) (source : String) :
    ((graph.record (.read path)).opening workspace path source).Accounted root := by
  have starts : ((graph.record (.read path)).opening workspace path source).starts =
      graph.starts ++ [path] := by
    rw [starts, filterMap_events_opening fun _ _ _ => rfl, events_record, List.append_assoc,
      List.filterMap_append]
    rfl
  have filesRead : ((graph.record (.read path)).opening workspace path source).filesRead =
      graph.filesRead ++ [path] := by
    rw [filesRead, filterMap_events_opening fun _ _ _ => rfl]
    simp [filesRead, GraphEvent.read?]
  have finishes : ((graph.record (.read path)).opening workspace path source).finishes =
      graph.finishes := by
    rw [finishes, filterMap_events_opening fun _ _ _ => rfl]
    simp [finishes, GraphEvent.finished?]
  have recorded : (graph.record (.read path)).slots.get? (.file path) = none := absent
  constructor
  · rw [keys_opening recorded, starts, List.map_append, ← accounted.started]
    rfl
  · rw [starts, ← List.concat_eq_append]
    exact accounted.distinct.concat (accounted.not_mem_starts absent)
  · rw [starts, filesRead, accounted.read]
    rfl
  · rw [finishes, order, finished_opening]
    exact accounted.finished
  · intro compiled
    rw [finished_opening]
    refine (accounted.closed compiled).trans ?_
    rw [get?_opening]
    by_cases equal : compiled.path = path
    · simp [equal, absent]
    · rw [if_neg (by simpa using equal)]
      rfl
  · rw [order, finished_opening]
    exact accounted.once

theorem path_ne_of_isOpen (accounted : graph.Accounted root) (isOpen : graph.IsOpen (.file path))
    {compiled : CompiledModule} (member : compiled ∈ graph.finished) : compiled.path ≠ path := by
  rintro rfl
  obtain ⟨state, found⟩ := isOpen
  cases found.symm.trans ((accounted.closed compiled).mp member)

theorem closing (accounted : graph.Accounted root) (isOpen : graph.IsOpen (.file path))
    (sheet : Stylesheet) : (graph.closing workspace path sheet).Accounted root := by
  have starts : (graph.closing workspace path sheet).starts = graph.starts := by
    simp [starts, GraphEvent.started?]
  have filesRead : (graph.closing workspace path sheet).filesRead = graph.filesRead := by
    simp [filesRead, GraphEvent.read?]
  have finishes : (graph.closing workspace path sheet).finishes = graph.finishes ++ [path] := by
    simp [finishes, GraphEvent.finished?]
  have finished : (graph.closing workspace path sheet).finished = graph.finished ++
      [workspace.closed path (graph.stateAt (.file path)) sheet] := rfl
  have unfinished := fun compiled (member : compiled ∈ graph.finished) =>
    accounted.path_ne_of_isOpen isOpen member
  constructor
  · rw [keys_closing isOpen, starts, accounted.started]
  · rw [starts]
    exact accounted.distinct
  · rw [starts, filesRead, accounted.read]
  · rw [finishes, order, finished, accounted.finished, order, List.map_append]
    rfl
  · intro compiled
    rw [finished, List.mem_append, List.mem_singleton, get?_closing]
    -- The file that is closed is the only one under its path: it was open until now.
    by_cases equal : compiled.path = path
    · rw [if_pos (by rw [equal]), Option.some.injEq, Slot.finished.injEq]
      constructor
      · rintro (member | rfl)
        · exact absurd equal (unfinished compiled member)
        · rfl
      · exact fun same => .inr same.symm
    · rw [if_neg (by simpa using equal), ← accounted.closed]
      refine or_iff_left ?_
      rintro rfl
      exact equal rfl
  · rw [order, finished, List.map_append, List.map_singleton, ← List.concat_eq_append]
    refine accounted.once.concat fun member => ?_
    obtain ⟨compiled, isFinished, isPath⟩ := List.mem_map.mp member
    exact unfinished compiled isFinished isPath

theorem opening_empty (workspace : Workspace) (root : Path) (source : String) :
    (Graph.empty.opening workspace root source).Accounted root := by
  have starts : (Graph.empty.opening workspace root source).starts = [root] := by
    rw [starts, filterMap_events_opening fun _ _ _ => rfl]
    rfl
  have filesRead : (Graph.empty.opening workspace root source).filesRead = [] := by
    rw [filesRead, filterMap_events_opening fun _ _ _ => rfl]
    rfl
  have finishes : (Graph.empty.opening workspace root source).finishes = [] := by
    rw [finishes, filterMap_events_opening fun _ _ _ => rfl]
    rfl
  constructor
  · rw [keys_opening rfl, starts]
    rfl
  · simp [starts]
  · rw [starts, filesRead]
  · rw [finishes, order, finished_opening]
    rfl
  · intro compiled
    rw [finished_opening, get?_opening]
    by_cases equal : compiled.path = root <;> simp [equal, Graph.empty]
  · rw [order, finished_opening]
    exact .nil

end Accounted

theorem Step.accounted (step : graph.Step workspace doomed after)
    (accounted : graph.Accounted root) : after.Accounted root := by
  cases step with
  | noted happens =>
    refine accounted.quiet (events_record ..) ?_ ?_ ?_ rfl rfl fun _ _ => .rfl <;>
    · cases happens <;> rfl
  | entered _ _ enters =>
    obtain ⟨_, _, slots⟩ := enter_eq_ok enters
    exact accounted.quiet (events_enter enters) rfl rfl rfl (by rw [slots])
      (finished_enter enters) (by simp [slots])
  | left => exact accounted.quiet (events_leave _) rfl rfl rfl rfl rfl fun _ _ => .rfl
  | altered isOpen alters => exact accounted.setState isOpen _
  | taken _ _ absent _ _ => exact accounted.opening absent _
  | closed isOpen _ sheet => exact accounted.closing isOpen sheet

theorem Steps.accounted (steps : graph.Steps workspace doomed after)
    (accounted : graph.Accounted root) : after.Accounted root :=
  steps.keeps Step.accounted accounted

end Graph

/-! ## What the account says -/

namespace Graph

/-- Every file of a graph has been processed once. -/
structure ProcessesOnce (root : Path) (graph : Graph) : Prop where
  /-- The slots belong to different files. -/
  slots : graph.slots.keys.Nodup ∧ ∀ site ∈ graph.slots.keys, ∃ path, site = .file path
  /-- A file begins to be compiled once if it has a slot, and never if it has none. -/
  started : ∀ path, graph.events.count (.started path) = if graph.has path then 1 else 0
  /-- As many files have gone through compilation as there are slots. -/
  processed : graph.processed = graph.slots.size
  /-- A file that has a slot is read once unless it is the root; no other file is read. -/
  reads : ∀ path, graph.reads path = if graph.has path ∧ path ≠ root then 1 else 0
  /-- The finished files are those whose slots are closed. -/
  finished : ∀ path compiled, graph.slots.get? (.file path) = some (.finished compiled) ↔
    compiled ∈ graph.finished ∧ compiled.path = path

namespace Accounted

variable {graph : Graph} {root path : Path}

theorem has_iff (accounted : graph.Accounted root) : graph.has path ↔ path ∈ graph.starts := by
  refine (OrderedMap.contains_iff_mem_keys _ _).trans ?_
  simp [accounted.started]

theorem count_started (accounted : graph.Accounted root) (path : Path) :
    graph.events.count (.started path) = if graph.has path then 1 else 0 := by
  have counted : graph.events.count (.started path) = graph.starts.count path := by
    rw [starts, List.count_filterMap]
    apply List.countP_congr
    rintro (_ | _) _ <;> simp [GraphEvent.started?]
  rw [counted, accounted.distinct.count]
  simp [accounted.has_iff]

theorem processed (accounted : graph.Accounted root) : graph.processed = graph.slots.size := by
  have counted : graph.processed = graph.starts.length := by
    rw [Graph.processed, starts, List.length_filterMap_eq_countP, events, List.countP_reverse]
    apply List.countP_congr
    rintro (_ | _) _ <;> simp [GraphEvent.started?, GraphEvent.isStart]
  have keys := congrArg List.length accounted.started
  rw [List.length_map, OrderedMap.keys, List.length_map] at keys
  exact counted.trans keys.symm

theorem reads (accounted : graph.Accounted root) (path : Path) :
    graph.reads path = if graph.has path ∧ path ≠ root then 1 else 0 := by
  have counted : graph.reads path = graph.filesRead.count path := by
    rw [Graph.reads, filesRead, List.count_filterMap, events, List.countP_reverse]
    apply List.countP_congr
    rintro (_ | _) _ <;> simp [GraphEvent.read?, GraphEvent.isReadOf]
  have distinct := accounted.distinct
  rw [accounted.read, List.nodup_cons] at distinct
  have isRead : path ∈ graph.filesRead ↔ graph.has path ∧ path ≠ root := by
    rw [accounted.has_iff, accounted.read, List.mem_cons]
    constructor
    · intro member
      exact ⟨.inr member, fun equal => distinct.1 (equal ▸ member)⟩
    · rintro ⟨equal | member, different⟩
      · exact absurd equal different
      · exact member
  rw [counted, distinct.2.count]
  simp [isRead]

theorem processesOnce (accounted : graph.Accounted root) (filed : graph.Filed) :
    graph.ProcessesOnce root where
  slots := by
    rw [accounted.started]
    refine ⟨List.Nodup.map (fun _ _ => Site.file.inj) accounted.distinct, fun site member => ?_⟩
    obtain ⟨path, _, rfl⟩ := List.mem_map.mp member
    exact ⟨path, rfl⟩
  started := accounted.count_started
  processed := accounted.processed
  reads := accounted.reads
  finished path compiled := by
    rw [accounted.closed]
    constructor
    · intro found
      cases filed _ _ found
      exact ⟨found, rfl⟩
    · rintro ⟨found, rfl⟩
      exact found

end Accounted

end Graph

/-! ## Runs -/

namespace Processing

variable {workspace : Workspace} {root : Path} {source : String}

theorem accounted_run (workspace : Workspace) (root : Path) (source : String) :
    (run workspace root source).graph.Accounted root :=
  (steps_run workspace root source).accounted (.opening_empty workspace root source)

variable {resolved : Graph} {sheet : Stylesheet}

theorem Arrives.finished (arrives : Arrives workspace root source resolved sheet) :
    (run workspace root source).graph.finished = resolved.finished ++
      [workspace.closed root (resolved.stateAt (.file root)) sheet] := by
  rw [arrives.graph]
  rfl

/-- A run that succeeds has finished every file that it has asked for. -/
theorem Arrives.mem_order (arrives : Arrives workspace root source resolved sheet) (path : Path) :
    (run workspace root source).graph.has path ↔ path ∈ (run workspace root source).graph.order := by
  have accounted := accounted_run workspace root source
  have filed := arrives.steps.filed (works_root workspace root source).filed
  refine (OrderedMap.contains_iff_get? _ _).trans ?_
  constructor
  · rintro ⟨slot, found⟩
    cases slot with
    | inFlight state => exact absurd ⟨state, found⟩ (arrives.closed _)
    | finished compiled =>
      cases filed _ _ found
      exact List.mem_map_of_mem ((accounted.closed compiled).mpr found)
  · intro member
    obtain ⟨compiled, isFinished, rfl⟩ := List.mem_map.mp member
    exact ⟨_, (accounted.closed compiled).mp isFinished⟩

/-- The dependencies of a root are all modules that were finished before it. -/
theorem Arrives.dependencies (arrives : Arrives workspace root source resolved sheet) :
    dependencies (run workspace root source).graph root = resolved.finished := by
  have accounted := arrives.returns.steps.accounted (.opening_empty workspace root source)
  have isOpen := (arrives.returns.opened (.file root)).mpr (Graph.isOpen_opening ..)
  rw [Processing.dependencies, arrives.finished, List.filter_append, List.filter_eq_self.mpr,
    List.filter_eq_nil_iff.mpr, List.append_nil]
  · simp [Workspace.closed]
  · intro compiled member
    simpa using accounted.path_ne_of_isOpen isOpen member

/-- In every run every file is processed at most once, at any moment and at the end. When the run
succeeds, every file that has been asked for is finished once, and the finished files are the
dependencies, followed by the root. -/
theorem each_file_is_processed_once (workspace : Workspace) (root : Path) (source : String) :
    (∀ moment, (Graph.empty.opening workspace root source).Steps workspace True moment →
        moment.ProcessesOnce root) ∧
      (Graph.empty.opening workspace root source).Steps workspace True
        (run workspace root source).graph ∧
      (run workspace root source).graph.ProcessesOnce root ∧
      ∀ file, (run workspace root source).outcome = .ok file →
        (∀ path, (run workspace root source).graph.has path →
          (run workspace root source).graph.order.count path = 1) ∧
        (run workspace root source).graph.order =
          file.dependencies.map Dependency.path ++ [root] ∧
        file.path = root ∧ file.processed = (run workspace root source).graph.slots.size := by
  have steps := steps_run workspace root source
  have once : ∀ moment, (Graph.empty.opening workspace root source).Steps workspace True moment →
      moment.ProcessesOnce root := by
    intro moment before
    have accounted := before.accounted (.opening_empty workspace root source)
    exact accounted.processesOnce (before.filed (works_root workspace root source).filed)
  have accounted := accounted_run workspace root source
  refine ⟨once, steps, once _ steps, fun file succeeds => ?_⟩
  obtain ⟨resolved, sheet, arrives⟩ := arrives_of_succeeds succeeds
  rw [arrives.outcome] at succeeds
  cases succeeds
  refine ⟨fun path known => ?_, ?_, rfl, accounted.processed⟩
  · rw [accounted.once.count, if_pos ((arrives.mem_order path).mp known)]
  · change _ = ((dependencies _ root).map _).map _ ++ [root]
    rw [arrives.dependencies, Graph.order, arrives.finished, List.map_map]
    exact List.map_append

/-- Two files that take a value from the same third one. -/
def diamond : Workspace where
  options := { Options.standard with namePattern := .template "[local]" }
  files := .ofList .top [("/base.css", ":export\x7bb:1\x7d"),
    ("/left.css", ":import('./base.css')\x7bb:b\x7d:export\x7bl:b\x7d"),
    ("/right.css", ":import('./base.css')\x7bb:b\x7d:export\x7br:b\x7d")]
  resolver := .nearest

def crossing : String :=
  ":import('./left.css')\x7bl:l\x7d:import('./right.css')\x7br:r\x7d"

theorem diamond_is_processed_once :
    ∃ file, (run diamond (.parse "/root.css") crossing).outcome = .ok file ∧
      file.dependencies.map (·.path.text) = ["/base.css", "/left.css", "/right.css"] ∧
      ((run diamond (.parse "/root.css") crossing).graph.ProcessesOnce (.parse "/root.css") ∧
        file.processed = (run diamond (.parse "/root.css") crossing).graph.slots.size) := by
  have runs : (run diamond (.parse "/root.css") crossing).outcome.toOption.map
      (fun file => file.dependencies.map (·.path.text)) =
        some ["/base.css", "/left.css", "/right.css"] := by decide +kernel
  obtain ⟨_, _, once, ends⟩ := each_file_is_processed_once diamond (.parse "/root.css") crossing
  cases succeeds : (run diamond (.parse "/root.css") crossing).outcome with
  | error halt =>
    rw [succeeds] at runs
    cases runs
  | ok file =>
    rw [succeeds] at runs
    exact ⟨file, rfl, Option.some.inj runs, once, (ends file succeeds).2.2.2⟩

end Processing

end ScopedStyles
