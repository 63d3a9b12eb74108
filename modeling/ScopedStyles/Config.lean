import ScopedStyles.Json.Value
import ScopedStyles.Options
import ScopedStyles.Pattern.Reading

/-!
Configurations: options as they are written in JSON. A configuration is an object, or a list that
gives the fields in their order. Fields may be missing, and unknown ones are ignored; a field that
is given twice or has a value of another kind makes the configuration unreadable.
-/

namespace ScopedStyles

inductive NamedConvention where
  | asIs
  | camelCase
  | camelCaseOnly
  | dashes
  | dashesOnly
deriving DecidableEq, Repr

namespace NamedConvention

def convention : NamedConvention → Convention
  | .asIs => .asIs
  | .camelCase => .camelCase
  | .camelCaseOnly => .camelCaseOnly
  | .dashes => .dashes
  | .dashesOnly => .dashesOnly

def name : NamedConvention → String
  | .asIs => "asIs"
  | .camelCase => "camelCase"
  | .camelCaseOnly => "camelCaseOnly"
  | .dashes => "dashes"
  | .dashesOnly => "dashesOnly"

def ofName? : String → Option NamedConvention
  | "asIs" => some .asIs
  | "camelCase" => some .camelCase
  | "camelCaseOnly" => some .camelCaseOnly
  | "dashes" => some .dashes
  | "dashesOnly" => some .dashesOnly
  | _ => none

end NamedConvention

namespace ScopeBehaviour

def name : ScopeBehaviour → String
  | .locally => "local"
  | .globally => "global"
  | .purely => "pure"

def ofName? : String → Option ScopeBehaviour
  | "local" | "LOCAL" => some .locally
  | "global" | "GLOBAL" => some .globally
  | "pure" | "PURE" => some .purely
  | _ => none

end ScopeBehaviour

structure Config where
  scopedName : Option String
  behaviour : ScopeBehaviour
  globalPaths : List String
  exportGlobals : Bool
  convention : Option NamedConvention
  salt : String
  root : Option String
  emitExportRule : Bool
  inlineDependencies : Bool
  removeEmptyRules : Bool
deriving DecidableEq, Repr

namespace Config

def standard : Config where
  scopedName := none
  behaviour := .locally
  globalPaths := []
  exportGlobals := false
  convention := none
  salt := ""
  root := none
  emitExportRule := false
  inlineDependencies := false
  removeEmptyRules := false

instance : Inhabited Config := ⟨standard⟩

/-! ## Reading values -/

def text? : JsonValue → Option String
  | .text content => content
  | _ => none

def flag? : JsonValue → Option Bool
  | .boolean value => some value
  | _ => none

def texts? : JsonValue → Option (List String)
  | .list items => items.mapM text?
  | _ => none

def optional? (read : JsonValue → Option α) : JsonValue → Option (Option α)
  | .null => some none
  | value => (read value).map some

/-- One of several words: the word itself, or an object that maps it to null. -/
def word? (ofName? : String → Option α) : JsonValue → Option α
  | .text (some name) => ofName? name
  | .object [(some name, .null)] => ofName? name
  | _ => none

/-! ## Fields -/

def fields : List String :=
  ["generateScopedName", "scopeBehaviour", "globalModulePaths", "exportGlobals",
   "localsConvention", "hashPrefix", "root", "emitExportRule", "inlineDependencies",
   "removeEmptyRules"]

/-- Give a field a value; fields that are not known change nothing. -/
def set? (config : Config) (field : String) (value : JsonValue) : Option Config :=
  match field with
  | "generateScopedName" =>
    (optional? text? value).map fun scopedName => { config with scopedName }
  | "scopeBehaviour" =>
    (word? ScopeBehaviour.ofName? value).map fun behaviour => { config with behaviour }
  | "globalModulePaths" => (texts? value).map fun globalPaths => { config with globalPaths }
  | "exportGlobals" => (flag? value).map fun exportGlobals => { config with exportGlobals }
  | "localsConvention" =>
    (optional? (word? NamedConvention.ofName?) value).map fun convention =>
      { config with convention }
  | "hashPrefix" => (text? value).map fun salt => { config with salt }
  | "root" => (optional? text? value).map fun root => { config with root }
  | "emitExportRule" => (flag? value).map fun emitExportRule => { config with emitExportRule }
  | "inlineDependencies" =>
    (flag? value).map fun inlineDependencies => { config with inlineDependencies }
  | "removeEmptyRules" =>
    (flag? value).map fun removeEmptyRules => { config with removeEmptyRules }
  | _ => some config

/-- Give fields values one after the other; `seen` are the known fields given before. -/
def setAll? (seen : List String) (config : Config) :
    List (Option String × JsonValue) → Option Config
  | [] => some config
  | (none, _) :: _ => none
  | (some field, value) :: rest =>
    if seen.contains field then none
    else
      (config.set? field value).bind fun config =>
        setAll? (if fields.contains field then field :: seen else seen) config rest

def ofValue? : JsonValue → Option Config
  | .object members => setAll? [] standard members
  | .list items =>
    if items.length ≤ fields.length then setAll? [] standard ((fields.map some).zip items)
    else none
  | _ => none

def parse? (text : String) : Option Config :=
  (JsonValue.parse? text).bind ofValue?

/-! ## Options -/

structure InvalidPattern where
  entry : String
deriving DecidableEq, Repr

def InvalidPattern.message (invalid : InvalidPattern) : String :=
  "invalid configuration: globalModulePaths entry \"" ++ invalid.entry ++
    "\" is not a valid regex"

def readPatterns : List String → Except InvalidPattern (List Pattern)
  | [] => .ok []
  | entry :: rest =>
    match Pattern.parse? entry with
    | none => .error ⟨entry⟩
    | some pattern => (readPatterns rest).map (pattern :: ·)

def options (config : Config) : Except InvalidPattern Options :=
  (readPatterns config.globalPaths).map fun globalPaths =>
    { namePattern := (config.scopedName.map NamePattern.template).getD .standard
      behaviour := config.behaviour
      globalPaths
      exportGlobals := config.exportGlobals
      convention := (config.convention.map NamedConvention.convention).getD .asIs
      salt := config.salt
      root := config.root.map Path.parse
      emitExportRule := config.emitExportRule
      inlineDependencies := config.inlineDependencies
      removeEmptyRules := config.removeEmptyRules }

example : (parse? "\x7b\"scopeBehaviour\": \x7b\"pure\": null\x7d\x7d").map (·.behaviour) =
    some .purely := by decide +kernel
example : parse? "[null, null]" = none := by decide +kernel
example : parse? "[]" = some standard := by decide +kernel

end Config

end ScopedStyles
