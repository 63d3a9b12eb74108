import ScopedStyles.Exports
import ScopedStyles.Module.Collect
import ScopedStyles.Pattern.Basic

/-!
Options of a compilation.
-/

namespace ScopedStyles

inductive ScopeBehaviour where
  | locally
  | globally
  | purely
deriving DecidableEq, Repr

def ScopeBehaviour.mode : ScopeBehaviour → Mode
  | .locally => .locally
  | .globally => .globally
  | .purely => .purely

structure Options where
  namePattern : NamePattern
  behaviour : ScopeBehaviour
  /-- Files whose path contains a match of one of these are global. -/
  globalPaths : List Pattern
  exportGlobals : Bool
  convention : Convention
  salt : String
  /-- The directory that the paths in scoped names are relative to, if it is not the working
  directory. -/
  root : Option Path
  emitExportRule : Bool
  inlineDependencies : Bool
  removeEmptyRules : Bool

namespace Options

def standard : Options where
  namePattern := .standard
  behaviour := .locally
  globalPaths := []
  exportGlobals := false
  convention := .asIs
  salt := ""
  root := none
  emitExportRule := false
  inlineDependencies := false
  removeEmptyRules := false

instance : Inhabited Options := ⟨standard⟩

def modeOf (options : Options) (path : Path) : Mode :=
  if options.globalPaths.any (·.isFoundIn path.text) then .globally else options.behaviour.mode

def namePath (options : Options) (directory path : Path) : String :=
  path.relativeTo (options.root.getD directory)

def generator (options : Options) : NameGenerator :=
  ⟨options.namePattern, options.salt⟩

def context (options : Options) (directory path : Path) (source : String) : FileContext where
  path
  namePath := options.namePath directory path
  source
  mode := options.modeOf path
  generator := options.generator
  exportGlobals := options.exportGlobals

end Options

end ScopedStyles
