import ScopedStyles.Path.Basic
import ScopedStyles.Text.Location

/-!
Why a file cannot be compiled. A failure names the file and the location of the node that caused
it.
-/

namespace ScopedStyles

inductive Cause where
  | unresolved (specifier reason : String)
  | missingExport (name source : String)
  | cyclicComposition (name : String) (chain : List String)
  | impure (selector : String)
  | nestedWrapper (selector : String)
  /-- A composition stands in a rule that is not for single local classes. -/
  | invalidComposition (selector : String)
  | composesLiteral (name : String)
deriving DecidableEq, Repr

inductive FailureKind where
  | resolution
  | cyclicComposition
  | purity
  | nestedWrapper
  | invalidComposition
deriving DecidableEq, Repr

namespace Cause

def kind : Cause → FailureKind
  | .unresolved .. | .missingExport .. => .resolution
  | .cyclicComposition .. => .cyclicComposition
  | .impure _ => .purity
  | .nestedWrapper _ => .nestedWrapper
  | .invalidComposition _ | .composesLiteral _ => .invalidComposition

def quote (text : String) : String := "\"" ++ text ++ "\""

/-- The message without the place. -/
def text : Cause → String
  | .unresolved specifier reason => "cannot resolve " ++ quote specifier ++ ": " ++ reason
  | .missingExport name source => quote name ++ " is not exported by " ++ quote source
  | .cyclicComposition name chain =>
    "cyclic composition of " ++ quote name ++ " (" ++ String.intercalate " -> " chain ++ ")"
  | .impure selector =>
    "selector " ++ quote selector ++
      " is not pure (pure selectors must contain at least one local class or id)"
  | .nestedWrapper selector => "a :global or :local wrapper is nested in " ++ quote selector
  | .invalidComposition selector =>
    "composition is only allowed when selector is a single local class name, not in " ++
      quote selector
  | .composesLiteral name => quote name ++ " is a value, not a class, and cannot be composed"

end Cause

structure Failure where
  file : Path
  location : Location
  cause : Cause
deriving DecidableEq

namespace Failure

def message (failure : Failure) : String :=
  failure.file.text ++ ":" ++ failure.location.text ++ ": " ++ failure.cause.text

end Failure

end ScopedStyles
