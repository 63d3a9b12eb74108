import ScopedStyles.Graph.Resolution
import ScopedStyles.Options
import ScopedStyles.Path.Specifier
import ScopedStyles.Sheet.Parse
import ScopedStyles.Sheet.Prune

/-!
Compiling files in a graph: collect what a file declares, resolve what it takes from elsewhere, and
substitute what has been settled.

Requests nest, and every one that goes deeper takes something that cannot be taken twice: the
compilation of a file takes one that is not in the graph, and the resolution of a name takes one
that waits and is not being resolved. `depthLimit` counts both.
-/

namespace ScopedStyles

structure Workspace where
  options : Options
  files : Files
  resolver : Resolver

def Workspace.context (workspace : Workspace) (path : Path) (source : String) : FileContext :=
  workspace.options.context workspace.files.directory path source

namespace Compilation

open Compiling

def start (path : Path) : Compiling Unit :=
  modify fun graph => (graph.setState (.file path) .empty).record (.started path)

/-- Collect what a text declares; what is collected before a failure stays at the site. -/
def collect (context : FileContext) (site : Site) : Compiling Stylesheet := do
  let (outcome, collection) := Collect.run context (parse context.source)
  update site fun _ => collection.state
  collection.malformed.forM fun (location, params) =>
    note (.malformedValue context.path location params)
  match outcome with
  | .ok sheet => return sheet
  | .error failure => throw (.failed failure)

def substitute (site : Site) (sheet : Stylesheet) : Compiling Stylesheet := do
  return Substitution.nodes (← stateAt site) sheet

def finish (options : Options) (path : Path) (sheet : Stylesheet) : Compiling CompiledModule := do
  let substituted ← substitute (.file path) sheet
  let kept := if options.removeEmptyRules then Node.pruneAll substituted else substituted
  let compiled : CompiledModule := ⟨path, ← stateAt (.file path), kept⟩
  modify fun graph => (graph.finish compiled).record (.finished path)
  return compiled

def compile (workspace : Workspace) (resolve : Site → Compiling Unit) (path : Path)
    (source : String) : Compiling CompiledModule := do
  start path
  let sheet ← collect (workspace.context path source) (.file path)
  resolve (.file path)
  finish workspace.options path sheet

/-- The file that a specifier means. A file that has been asked for before is handed out as it is;
another one is read and compiled. -/
def load (workspace : Workspace) (calls : Calls) (specifier : String) (importer : Path)
    (location : Location) : Compiling Handle := do
  let unresolved (reason : String) : Compiling Handle :=
    fail (.file importer) location (.unresolved specifier reason)
  match workspace.resolver.resolve workspace.files specifier importer with
  | .error reason => unresolved reason
  | .ok path =>
    match (← get).handle? path with
    | some handle => do
      note (.cached path importer)
      note (.handed path importer handle.isReady)
      return handle
    | none => do
      note (.resolved specifier importer path)
      match workspace.files.read path with
      | .error reason => unresolved reason
      | .ok source => do
        note (.read path)
        let compiled ← compile workspace (Resolution.resolve calls) path source
        note (.handed path importer true)
        return .ready compiled

/-! ## Nested requests -/

def exhausted : Calls where
  load _ _ _ := throw .exhausted
  resolveOwner _ _ := throw .exhausted

def calls (workspace : Workspace) : (depth : Nat) → Calls
  | 0 => exhausted
  | depth + 1 =>
    let deeper := calls workspace depth
    { load := load workspace deeper
      resolveOwner := Resolution.resolveOwner deeper }

def waiting (state : ModuleState) : Nat :=
  state.pending.length + state.literals.size

def waitingIn (context : FileContext) : Nat :=
  waiting (Collect.run context (parse context.source)).2.state

def total (counts : List Nat) : Nat :=
  counts.foldr (· + ·) 0

/-- How deep requests can nest: one level for every file and for every name that can wait in a file
or in the graph, and one for a request that goes no deeper. -/
def depthLimit (workspace : Workspace) (graph : Graph) : Nat :=
  total (workspace.files.contents.entries.map fun (path, source) =>
      1 + waitingIn (workspace.context path source)) +
    total (graph.slots.values.map fun slot => waiting slot.state) + 1

def allCalls (workspace : Workspace) : Compiling Calls := do
  return calls workspace (depthLimit workspace (← get))

def resolve (workspace : Workspace) (site : Site) : Compiling Unit := do
  Resolution.resolve (← allCalls workspace) site

end Compilation

namespace Graph

def compile (workspace : Workspace) (path : Path) (source : String) : Compiling CompiledModule :=
  Compilation.compile workspace (Compilation.resolve workspace) path source

def load (workspace : Workspace) (specifier : String) (importer : Path) (location : Location) :
    Compiling Handle := do
  (← Compilation.allCalls workspace).load specifier importer location

/-- Collect what a text declares that is compiled under a path without being that file. -/
def collectDraft (workspace : Workspace) (path : Path) (source : String) (mode : Mode) :
    Compiling Stylesheet :=
  Compilation.collect { workspace.context path source with mode } (.draft path)

def resolveDraft (workspace : Workspace) (path : Path) : Compiling Unit :=
  Compilation.resolve workspace (.draft path)

def substituteDraft (path : Path) (sheet : Stylesheet) : Compiling Stylesheet :=
  Compilation.substitute (.draft path) sheet

end Graph

end ScopedStyles
