import ScopedStyles.Batch.Glob
import ScopedStyles.Batch.Outputs
import ScopedStyles.Config

/-!
Processing several inputs: find the configuration, expand the patterns of the inputs, process every
input on its own, and write the results. Nothing is written unless every input has been processed.
-/

namespace ScopedStyles

inductive BatchFailure where
  | unreadableConfig (path : String)
  | malformedConfig (path : String)
  | invalidPattern (invalid : Config.InvalidPattern)
  | missingInput (path : String)
  | invalidGlob (pattern : String)
  | noInputs
  | entry (input : String) (halt : Halt)
  | uncreatable (directory : String)
  | unwritable (path : String)
deriving DecidableEq

namespace BatchFailure

def message : BatchFailure → String
  | .unreadableConfig path => "failed to read " ++ path
  | .malformedConfig path => "failed to parse " ++ path
  | .invalidPattern invalid => invalid.message
  | .missingInput path => "input file not found: " ++ path
  | .invalidGlob pattern => "invalid glob pattern '" ++ pattern ++ "'"
  | .noInputs => "no input files matched"
  | .entry input _ => "failed to process " ++ input
  | .uncreatable directory => "failed to create " ++ directory
  | .unwritable path => "failed to write " ++ path

def cause? : BatchFailure → Option String
  | .invalidPattern invalid => some invalid.message
  | .entry _ (.failed failure) => some failure.message
  | _ => none

/-- The message, followed by what is behind it unless it says so itself. -/
def report (failure : BatchFailure) : String :=
  match failure.cause? with
  | some cause => if cause = failure.message then cause else failure.message ++ ": " ++ cause
  | none => failure.message

end BatchFailure

structure BatchRequest where
  inputs : List String
  directory : String
  configPath : Option String
  outputDirectory : Option String
  emitExportRule : Bool
  inlineDependencies : Bool
  removeEmptyRules : Bool
deriving DecidableEq, Repr

namespace Batch

/-! ## Configuration -/

def configName : String := "css-modules.json"

/-- The configuration in a file; a relative root is taken from the directory of the file. -/
def loadConfig (path : String) (content : Option String) : Except BatchFailure Config :=
  match content with
  | none => .error (.unreadableConfig path)
  | some content =>
    match Config.parse? content with
    | none => .error (.malformedConfig path)
    | some config =>
      let base := (WrittenPath.parent? path).getD "."
      .ok { config with root := config.root.map (WrittenPath.join base) }

def configFile (request : BatchRequest) : String × Bool :=
  match request.configPath with
  | some path => (WrittenPath.join request.directory path, true)
  | none => (WrittenPath.join request.directory configName, false)

/-- The configuration of a request; a file that has not been asked for may be missing. -/
def discover (tree : Tree) (request : BatchRequest) : Except BatchFailure Config :=
  let (path, isRequested) := configFile request
  if isRequested || tree.isFile path then loadConfig path (tree.read? path) else .ok .standard

def options (config : Config) (request : BatchRequest) : Except BatchFailure Options :=
  match config.options with
  | .error invalid => .error (.invalidPattern invalid)
  | .ok options =>
    .ok { options with
      emitExportRule := options.emitExportRule || request.emitExportRule
      inlineDependencies := options.inlineDependencies || request.inlineDependencies
      removeEmptyRules := options.removeEmptyRules || request.removeEmptyRules }

/-! ## Inputs -/

def addInputs (inputs : List String) (paths : List String) : List String :=
  paths.foldl
    (fun inputs path =>
      if inputs.any fun other => WrittenPath.steps other = WrittenPath.steps path then inputs
      else inputs ++ [path])
    inputs

def expandInput (tree : Tree) (directory input : String) : Except BatchFailure (List String) :=
  let path := WrittenPath.join directory input
  if Glob.isPattern input then
    match globFiles? tree path with
    | some paths => .ok paths
    | none => .error (.invalidGlob input)
  else if tree.isFile path then .ok [path]
  else .error (.missingInput path)

def expandInputs (tree : Tree) (directory : String) (inputs : List String) :
    Except BatchFailure (List String) := do
  let expanded ← inputs.mapM (expandInput tree directory)
  let paths := expanded.foldl addInputs []
  if paths.isEmpty then .error .noInputs else .ok paths

/-! ## Processing -/

def processEntry (workspace : Workspace) (request : BatchRequest) (input : String) :
    Except BatchFailure EntryOutput :=
  let invocation := Processing.processFile workspace input
  match invocation.outcome with
  | .error halt => .error (.entry input halt)
  | .ok file =>
    .ok ⟨input, .ofInput input request.directory request.outputDirectory, file, invocation.log⟩

def processAll (options : Options) (tree : Tree) (request : BatchRequest) (inputs : List String) :
    Except BatchFailure (List EntryOutput) :=
  inputs.mapM (processEntry ⟨options, tree.toFiles request.directory, .nearest⟩ request)

def plan (tree : Tree) (request : BatchRequest) : Except BatchFailure (List EntryOutput) := do
  let config ← discover tree request
  let options ← options config request
  let inputs ← expandInputs tree request.directory request.inputs
  processAll options tree request inputs

def requestedPaths (options : Options) (directory path : Path) (source : String) : List Path :=
  let state := (Collect.run (options.context directory path source) (parse source)).2.state
  let composed := state.compositions.values.flatten.flatMap Composition.references
  let specifiers := state.imports.map ImportReference.specifier ++
    composed.filterMap fun reference =>
      match reference.source with
      | .file specifier => some specifier
      | _ => none
  specifiers.flatMap (Specifier.candidates path.directory)

/-! ## Writing -/

def writeText (text : EntryOutput.Text) (tree : Tree) : Except BatchFailure Tree :=
  let directory := (WrittenPath.parent? text.path).getD ""
  match if text.makesDirectories then tree.makeDirectories? directory else some tree with
  | none => .error (.uncreatable directory)
  | some made =>
    match made.write? text.path text.content with
    | none => .error (.unwritable text.path)
    | some written => .ok written

/-- Write texts one after the other; what is written before a failure stays. -/
def writeAll : List EntryOutput.Text → Tree → Except BatchFailure Unit × Tree
  | [], tree => (.ok (), tree)
  | text :: rest, tree =>
    match writeText text tree with
    | .ok written => writeAll rest written
    | .error failure => (.error failure, tree)

def run (tree : Tree) (request : BatchRequest) :
    Except BatchFailure (List EntryOutput) × Tree :=
  match plan tree request with
  | .error failure => (.error failure, tree)
  | .ok outputs =>
    let (outcome, after) := writeAll (outputs.flatMap EntryOutput.texts) tree
    (outcome.map fun _ => outputs, after)

end Batch

end ScopedStyles
