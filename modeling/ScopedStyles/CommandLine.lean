import ScopedStyles.Batch.Run

/-!
The command line: what is asked of a batch, and how its results are shown.
-/

namespace ScopedStyles

structure CommandLine where
  inputs : List String
  configPath : Option String
  outputDirectory : Option String
  emitExportRule : Bool
  inlineDependencies : Bool
  removeEmptyRules : Bool
  printsExports : Bool
  level : LogLevel
deriving DecidableEq, Repr

namespace CommandLine

def standard : CommandLine where
  inputs := []
  configPath := none
  outputDirectory := none
  emitExportRule := false
  inlineDependencies := false
  removeEmptyRules := false
  printsExports := false
  level := .warn

instance : Inhabited CommandLine := ⟨standard⟩

def setFlag? (command : CommandLine) : String → Option CommandLine
  | "--json" => some { command with printsExports := true }
  | "--bundle" => some { command with inlineDependencies := true }
  | "--remove-empty-rules" => some { command with removeEmptyRules := true }
  | "--export-rule" => some { command with emitExportRule := true }
  | _ => none

def setValue? (command : CommandLine) (name value : String) : Option CommandLine :=
  if name = "-c" ∨ name = "--config" then some { command with configPath := some value }
  else if name = "-o" ∨ name = "--out-dir" then
    some { command with outputDirectory := some value }
  else if name = "--log-level" then
    (LogLevel.ofName? value).map fun level => { command with level }
  else none

def readFrom (command : CommandLine) : List String → Except String CommandLine
  | [] => .ok command
  | [last] =>
    match command.setFlag? last with
    | some changed => .ok changed
    | none =>
      if "-".toList.isPrefixOf last.toList then .error ("unexpected argument '" ++ last ++ "'")
      else .ok { command with inputs := command.inputs ++ [last] }
  | first :: second :: rest =>
    match command.setFlag? first, command.setValue? first second with
    | some changed, _ => changed.readFrom (second :: rest)
    | none, some changed => changed.readFrom rest
    | none, none =>
      if "-".toList.isPrefixOf first.toList then .error ("unexpected argument '" ++ first ++ "'")
      else { command with inputs := command.inputs ++ [first] }.readFrom (second :: rest)

/-- The command line that arguments spell; there has to be an input. -/
def parse (arguments : List String) : Except String CommandLine :=
  match readFrom standard arguments with
  | .error message => .error message
  | .ok command =>
    if command.inputs.isEmpty then .error "no input files are given" else .ok command

def request (command : CommandLine) (directory : String) : BatchRequest where
  inputs := command.inputs
  directory
  configPath := command.configPath
  outputDirectory := command.outputDirectory
  emitExportRule := command.emitExportRule
  inlineDependencies := command.inlineDependencies
  removeEmptyRules := command.removeEmptyRules

end CommandLine

def LogRecord.line (entry : LogRecord) : String :=
  "[" ++ entry.level.label ++ "] " ++ entry.message

end ScopedStyles
