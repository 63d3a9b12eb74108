import ScopedStyles.CommandLine

/-!
The program: reads the files that a command line is about, runs the batch on them, and writes the
results.
-/

namespace ScopedStyles.Program

def readText? (path : String) : IO (Option String) := do
  match ← (IO.FS.readFile path).toBaseIO with
  | .ok content => return some content
  | .error _ => return none

def inspect (path : String) : IO (Bool × Bool) := do
  let here ← IO.currentDir
  let found := here / path
  let isDirectory ← found.isDir
  return (!isDirectory && (← found.pathExists), isDirectory)

/-- How deep directories are looked into, and how many imports may follow one another. -/
def nesting : Nat := 1000

def nameFiles : (depth : Nat) → (directory : String) → Tree → IO Tree
  | 0, _, tree => return tree
  | depth + 1, directory, tree => do
    let here ← IO.currentDir
    let entries ← (here / directory).readDir
    entries.foldlM
      (fun tree entry => do
        let path := WrittenPath.join directory entry.fileName
        let (isFile, isDirectory) ← inspect path
        if isDirectory then nameFiles depth path tree
        else return if isFile then tree.store path "" else tree)
      tree

def baseOf (pattern : String) : String :=
  String.intercalate "/" ((WrittenPath.parts pattern).takeWhile fun part => !Glob.isPattern part)

def nameInput (directory : String) (tree : Tree) (input : String) : IO Tree := do
  let path := WrittenPath.join directory input
  if Glob.isPattern input then
    let base := baseOf path
    if (← inspect base).2 then nameFiles nesting base tree else return tree
  else return if (← inspect path).1 then tree.store path "" else tree

/-- Add files and those that they take something from, with their contents. -/
def readFiles (options : Options) (directory : Path) :
    (rounds : Nat) → List Path → Tree → IO Tree
  | 0, _, tree => return tree
  | rounds + 1, paths, tree => do
    let fresh := paths.eraseDups.filter fun path => !tree.isFile path.text
    let contents ← fresh.mapM fun path => return (path, ← readText? path.text)
    let found := contents.filterMap fun (path, content) => content.map (path, ·)
    if found.isEmpty then return tree
    else
      let requested := found.flatMap fun (path, content) =>
        Batch.requestedPaths options directory path content
      readFiles options directory rounds requested
        (found.foldl (fun tree (path, content) => tree.store path.text content) tree)

def discover (request : BatchRequest) : IO (Except BatchFailure Config) := do
  let (path, isRequested) := Batch.configFile request
  if isRequested || (← inspect path).1 then
    return Batch.loadConfig path (← readText? path)
  return .ok .standard

def writeText (text : EntryOutput.Text) : IO (Except BatchFailure Unit) := do
  let directory := (WrittenPath.parent? text.path).getD ""
  if text.makesDirectories then
    if let .error _ ← (IO.FS.createDirAll directory).toBaseIO then
      return .error (.uncreatable directory)
  if let .error _ ← (IO.FS.writeFile text.path text.content).toBaseIO then
    return .error (.unwritable text.path)
  return .ok ()

def report (level : LogLevel) (entry : LogRecord) : IO Unit := do
  if level.isEnabled entry.level then IO.eprintln entry.line

def writeOutput (level : LogLevel) (output : EntryOutput) : ExceptT BatchFailure IO Unit := do
  output.texts.forM fun text => ExceptT.mk (writeText text)
  report level output.written

def run (command : CommandLine) : ExceptT BatchFailure IO Unit := do
  let request := command.request (← IO.currentDir).toString
  let config ← ExceptT.mk (discover request)
  let options ← ExceptT.mk (pure (Batch.options config request))
  let names ← (request.inputs.foldlM (nameInput request.directory) Tree.empty : IO Tree)
  let inputs ← ExceptT.mk (pure (Batch.expandInputs names request.directory request.inputs))
  report command.level ⟨.debug, "processing " ++ toString inputs.length ++ " input(s)"⟩
  let directory := Path.parse request.directory
  let files ← readFiles options directory nesting (inputs.map directory.resolve) Tree.empty
  let outputs ← ExceptT.mk (pure (Batch.processAll options files request inputs))
  (outputs.flatMap EntryOutput.log).forM fun entry => report command.level entry
  outputs.forM (writeOutput command.level)
  if command.printsExports then IO.println (exportLines outputs)

end ScopedStyles.Program

open ScopedStyles in
/-- Exit codes tell a wrong command line from a failure. -/
def main (arguments : List String) : IO UInt32 := do
  match CommandLine.parse arguments with
  | .error message =>
    IO.eprintln ("error: " ++ message)
    return 2
  | .ok command =>
    match ← (Program.run command).run with
    | .ok () => return 0
    | .error failure =>
      IO.eprintln ("Error: " ++ failure.report)
      return 1
