/-!
Log records. A logger says from which level on it writes; a backend takes records up to the
verbosity that it is set to.
-/

namespace ScopedStyles

inductive LogLevel where
  | debug
  | info
  | warn
  | error
deriving DecidableEq, Repr

namespace LogLevel

def label : LogLevel → String
  | .debug => "DEBUG"
  | .info => "INFO"
  | .warn => "WARN"
  | .error => "ERROR"

def ofName? : String → Option LogLevel
  | "debug" => some .debug
  | "info" => some .info
  | "warn" => some .warn
  | "error" => some .error
  | _ => none

def rank : LogLevel → Nat
  | .debug => 0
  | .info => 1
  | .warn => 2
  | .error => 3

def isEnabled (least level : LogLevel) : Bool :=
  least.rank ≤ level.rank

end LogLevel

structure LogRecord where
  level : LogLevel
  message : String
deriving DecidableEq, Repr

inductive Verbosity where
  | off
  | error
  | warn
  | info
  | debug
  | trace
deriving DecidableEq, Repr

namespace Verbosity

def ofName? : String → Option Verbosity
  | "off" => some .off
  | "error" => some .error
  | "warn" => some .warn
  | "info" => some .info
  | "debug" => some .debug
  | "trace" => some .trace
  | _ => none

def least? : Verbosity → Option LogLevel
  | .off => none
  | .error => some .error
  | .warn => some .warn
  | .info => some .info
  | .debug | .trace => some .debug

/-- The level from which a logger writes that forwards to the backend; errors are always written. -/
def level (verbosity : Verbosity) : LogLevel :=
  verbosity.least?.getD .error

def admits (verbosity : Verbosity) (level : LogLevel) : Bool :=
  (verbosity.least?.map (·.isEnabled level)).getD false

example : off.admits .error = false ∧ off.level.isEnabled .error = true := by decide

end Verbosity

namespace LogRecord

def forwarded (verbosity : Verbosity) (entry : LogRecord) : List (String × String × String) :=
  if verbosity.admits entry.level then [(entry.level.label, "css_modules", entry.message)] else []

end LogRecord

end ScopedStyles
