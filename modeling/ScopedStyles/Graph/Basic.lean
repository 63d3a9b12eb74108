import ScopedStyles.Failure
import ScopedStyles.Graph.Event
import ScopedStyles.Sheet.Node

/-!
The graph of the files that are compiled together. Every file has one slot: from the moment it is
asked for the slot holds what is known about the file, and at the end what it has been compiled to.
Files that import each other in a circle see the unfinished slots.
-/

namespace ScopedStyles

inductive Site where
  /-- A file that can be imported. -/
  | file (path : Path)
  /-- A text that is compiled under a path without being that file. -/
  | draft (path : Path)
deriving DecidableEq

def Site.path : Site → Path
  | .file path | .draft path => path

structure CompiledModule where
  path : Path
  state : ModuleState
  sheet : Stylesheet

def CompiledModule.table (compiled : CompiledModule) : TokenTable :=
  compiled.state.table

inductive Slot where
  | inFlight (state : ModuleState)
  | finished (compiled : CompiledModule)

def Slot.state : Slot → ModuleState
  | .inFlight state => state
  | .finished compiled => compiled.state

inductive Handle where
  | inFlight (path : Path)
  | ready (compiled : CompiledModule)

namespace Handle

def path : Handle → Path
  | .inFlight path => path
  | .ready compiled => compiled.path

def isReady : Handle → Bool
  | .inFlight _ => false
  | .ready _ => true

end Handle

structure Graph where
  slots : OrderedMap Site Slot
  /-- Finished files, dependencies first. -/
  finished : List CompiledModule
  /-- The names whose compositions are being resolved, innermost last. -/
  resolving : List (Path × String)
  /-- What has happened, latest first. -/
  trace : List GraphEvent

namespace Graph

def empty : Graph := ⟨.empty, [], [], []⟩

instance : Inhabited Graph := ⟨empty⟩

/-! ## Slots -/

def has (graph : Graph) (path : Path) : Bool :=
  graph.slots.contains (.file path)

def stateAt (graph : Graph) (site : Site) : ModuleState :=
  ((graph.slots.get? site).map Slot.state).getD .empty

def setState (graph : Graph) (site : Site) (state : ModuleState) : Graph :=
  { graph with slots := graph.slots.insert site (.inFlight state) }

def finish (graph : Graph) (compiled : CompiledModule) : Graph :=
  { graph with
    slots := graph.slots.insert (.file compiled.path) (.finished compiled)
    finished := graph.finished ++ [compiled] }

def handle? (graph : Graph) (path : Path) : Option Handle :=
  (graph.slots.get? (.file path)).map fun slot =>
    match slot with
    | .inFlight _ => .inFlight path
    | .finished compiled => .ready compiled

def lookup (graph : Graph) (handle : Handle) (name : String) : Lookup :=
  match handle with
  | .inFlight path => (graph.stateAt (.file path)).lookup name
  | .ready compiled => compiled.table.lookup name

/-! ## Names being resolved -/

/-- Begin to resolve a name, or give the chain from the name back to itself. -/
def enter (graph : Graph) (path : Path) (name : String) : Except (List (Path × String)) Graph :=
  if (path, name) ∈ graph.resolving then
    .error (graph.resolving.dropWhile (· ≠ (path, name)) ++ [(path, name)])
  else
    .ok { graph with
      resolving := graph.resolving ++ [(path, name)]
      trace := .entered path name :: graph.trace }

def leave (graph : Graph) : Graph :=
  { graph with resolving := graph.resolving.dropLast, trace := .left :: graph.trace }

/-! ## Events -/

def record (graph : Graph) (event : GraphEvent) : Graph :=
  { graph with trace := event :: graph.trace }

def events (graph : Graph) : List GraphEvent :=
  graph.trace.reverse

def processed (graph : Graph) : Nat :=
  graph.trace.countP GraphEvent.isStart

def reads (graph : Graph) (path : Path) : Nat :=
  graph.trace.countP (GraphEvent.isReadOf path)

def log (graph : Graph) : List LogRecord :=
  graph.events.filterMap GraphEvent.logged?

end Graph

/-! ## Computations on a graph -/

inductive Halt where
  | failed (failure : Failure)
  | exhausted
deriving DecidableEq

/-- Computations on a graph; what they did before they end early stays. -/
abbrev Compiling := ExceptT Halt (StateM Graph)

namespace Compiling

def fail (site : Site) (location : Location) (cause : Cause) : Compiling α :=
  throw (.failed ⟨site.path, location, cause⟩)

def note (event : GraphEvent) : Compiling Unit :=
  modify (·.record event)

def stateAt (site : Site) : Compiling ModuleState := do
  return (← get).stateAt site

def update (site : Site) (change : ModuleState → ModuleState) : Compiling Unit :=
  modify fun graph => graph.setState site (change (graph.stateAt site))

/-- Do something while the compositions of a name are resolved. The name is left on every way
out. -/
def whileResolving (path : Path) (name : String) (cyclic : List (Path × String) → Halt)
    (action : Compiling α) : Compiling α :=
  ExceptT.mk fun graph =>
    match graph.enter path name with
    | .error chain => (.error (cyclic chain), graph)
    | .ok entered =>
      let result := (action.run.run entered).run
      (result.1, result.2.leave)

end Compiling

end ScopedStyles
