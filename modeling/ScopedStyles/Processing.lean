import ScopedStyles.Graph.Compilation
import ScopedStyles.Json.Value
import ScopedStyles.Sheet.Printer

/-!
Processing one file: compile it with everything that it takes from other files, and assemble its
sheet, its exports and the sheets of its dependencies. Every invocation begins with an empty graph.
-/

namespace ScopedStyles

structure Dependency where
  path : Path
  css : String
deriving DecidableEq

structure ProcessedFile where
  path : Path
  css : String
  exported : Exports
  tokens : TokenTable
  /-- All files that were compiled on the way, dependencies first. -/
  dependencies : List Dependency
  processed : Nat
deriving DecidableEq

structure Invocation where
  outcome : Except Halt ProcessedFile
  graph : Graph

namespace Processing

def dependencies (graph : Graph) (root : Path) : List CompiledModule :=
  graph.finished.filter (·.path ≠ root)

/-- The sheet of the root with what the options put in front of it. -/
def assemble (options : Options) (root : CompiledModule) (others : List CompiledModule)
    (exported : Exports) : Stylesheet :=
  (if options.emitExportRule then [exported.toRule] else []) ++
    (if options.inlineDependencies then others.flatMap CompiledModule.sheet else []) ++ root.sheet

def summarize (options : Options) (graph : Graph) (root : CompiledModule) : ProcessedFile :=
  let others := dependencies graph root.path
  let exported := Exports.ofTable root.table options.convention root.path
  { path := root.path
    css := render (assemble options root others exported)
    exported
    tokens := root.table
    dependencies := others.map fun compiled => ⟨compiled.path, render compiled.sheet⟩
    processed := graph.processed }

def run (workspace : Workspace) (path : Path) (source : String) : Invocation :=
  let (outcome, graph) := (Graph.compile workspace path source).run.run .empty
  ⟨outcome.map (summarize workspace.options graph), graph⟩

def processSource (workspace : Workspace) (path source : String) : Invocation :=
  run workspace (workspace.files.directory.resolve path) source

def processFile (workspace : Workspace) (path : String) : Invocation :=
  let resolved := workspace.files.directory.resolve path
  match workspace.files.read resolved with
  | .error reason => ⟨.error (.failed ⟨resolved, .start, .unresolved path reason⟩), .empty⟩
  | .ok source =>
    let invocation := run workspace resolved source
    { invocation with graph.trace := invocation.graph.trace ++ [.read resolved] }

end Processing

/-- A processed file as JSON, on one line; its tokens are left out. -/
def ProcessedFile.toJson (file : ProcessedFile) : String :=
  Json.object [
    ("path", Json.quote file.path.text),
    ("css", Json.quote file.css),
    ("exports", Json.object (file.exported.entries.map fun (key, value) =>
      (key, Json.quote value))),
    ("dependencies", Json.list (file.dependencies.map fun dependency =>
      Json.object [("path", Json.quote dependency.path.text), ("css", Json.quote dependency.css)])),
    ("processed_count", toString file.processed)]

namespace Invocation

def summary (file : ProcessedFile) : LogRecord :=
  ⟨.info,
    "processed " ++ file.path.text ++ " (" ++ toString file.processed ++ " file" ++
      (if file.processed = 1 then "" else "s") ++ ")"⟩

def log (invocation : Invocation) : List LogRecord :=
  invocation.graph.log ++ invocation.outcome.toOption.toList.map summary

def handedOut (invocation : Invocation) : List (Path × Exports) :=
  invocation.outcome.toOption.toList.map fun file => (file.path, file.exported)

end Invocation

end ScopedStyles
