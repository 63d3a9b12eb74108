import ScopedStyles.Path.Written
import ScopedStyles.Processing

/-!
Where the results of a batch go. With an output directory, sheet and exports keep the path that the
input has below the working directory; without one, only the exports are written, beside the input.
-/

namespace ScopedStyles

structure OutputPaths where
  css : Option String
  exported : String
deriving DecidableEq, Repr

namespace OutputPaths

/-- The path of an input below the working directory; an input outside it has its file name. -/
def below (directory input : String) : String :=
  match WrittenPath.behind? directory input with
  | some relative => relative
  | none => (WrittenPath.fileName? input).getD ""

def ofInput (input directory : String) (outputDirectory : Option String) : OutputPaths :=
  match outputDirectory with
  | some output =>
    let css := WrittenPath.join (WrittenPath.join directory output) (below directory input)
    ⟨some css, css ++ ".json"⟩
  | none => ⟨none, input ++ ".json"⟩

example : ofInput "/work/src/a.css" "/work" (some "dist") =
    ⟨some "/work/dist/src/a.css", "/work/dist/src/a.css.json"⟩ := by decide +kernel

end OutputPaths

def Exports.toLines (exported : Exports) (level : Nat) : String :=
  Json.objectOnLines level (exported.entries.map fun (key, value) => (key, Json.quote value))

structure EntryOutput where
  input : String
  paths : OutputPaths
  file : ProcessedFile
  log : List LogRecord
deriving DecidableEq

namespace EntryOutput

structure Text where
  path : String
  content : String
  makesDirectories : Bool
deriving DecidableEq, Repr

def texts (output : EntryOutput) : List Text :=
  (output.paths.css.toList.map fun path => ⟨path, output.file.css, true⟩) ++
    [⟨output.paths.exported, output.file.exported.toLines 0, false⟩]

def written (output : EntryOutput) : LogRecord :=
  ⟨.info, "wrote " ++ output.paths.exported⟩

end EntryOutput

/-- The exports of all inputs; an input that occurs twice counts once. -/
def exportsByInput (outputs : List EntryOutput) : OrderedMap String Exports :=
  .ofList (outputs.map fun output => (output.input, output.file.exported))

def exportLines (outputs : List EntryOutput) : String :=
  Json.objectOnLines 0
    ((exportsByInput outputs).entries.map fun (input, exported) => (input, exported.toLines 1))

end ScopedStyles
