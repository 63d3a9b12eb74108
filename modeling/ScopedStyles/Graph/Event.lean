import ScopedStyles.Log
import ScopedStyles.Module.State
import ScopedStyles.Path.Basic

/-!
What happens while files are compiled. Logs and counts are read off the events.
-/

namespace ScopedStyles

inductive GraphEvent where
  /-- A specifier means a file that has been asked for before. -/
  | cached (path importer : Path)
  | resolved (specifier : String) (importer path : Path)
  | read (path : Path)
  | started (path : Path)
  | malformedValue (path : Path) (location : Location) (params : String)
  | finished (path : Path)
  | handed (path importer : Path) (isFinished : Bool)
  /-- A module that is not finished answers for a name. -/
  | answered (path : Path) (name : String) (answer : Lookup)
  | entered (path : Path) (name : String)
  | left
deriving DecidableEq

namespace GraphEvent

def isStart : GraphEvent → Bool
  | .started _ => true
  | _ => false

def isReadOf (path : Path) : GraphEvent → Bool
  | .read other => other = path
  | _ => false

def logged? : GraphEvent → Option LogRecord
  | .cached path importer =>
    some ⟨.debug, "cache hit for " ++ path.text ++ " (from " ++ importer.text ++ ")"⟩
  | .resolved specifier importer path =>
    some ⟨.debug,
      "resolved \"" ++ specifier ++ "\" from " ++ importer.text ++ " to " ++ path.text⟩
  | .started path => some ⟨.debug, "processing " ++ path.text⟩
  | .malformedValue path location params =>
    some ⟨.warn,
      path.text ++ ":" ++ location.text ++ ": ignoring malformed @value " ++ params⟩
  | _ => none

end GraphEvent

end ScopedStyles
