import ScopedStyles.Identifier.Mention
import ScopedStyles.Keyframes
import ScopedStyles.Module.State
import ScopedStyles.Sheet.Node

/-!
Settling literals, and substituting what they settle to. A literal is settled by replacing the
symbols it mentions; it waits as long as it mentions a blocked name or a value that waits itself.
-/

namespace ScopedStyles

def substituteSymbols (symbols : OrderedMap String String) (text : String) : String :=
  renameMentions symbols.get? text

namespace Literal

def dependsOn (literal : Literal) (names : List String) : Bool :=
  (mentionedNames literal.raw).any names.contains

end Literal

namespace ModuleState

def postpone (state : ModuleState) (name : String) (literal : Literal) : ModuleState :=
  let waiting := state.await name
  { waiting with literals := waiting.literals.insert name literal }

def settle (state : ModuleState) (name : String) (literal : Literal) : ModuleState :=
  let value := substituteSymbols state.symbols literal.raw
  let known := if literal.isValue then state.addSymbol name value else state
  (known.declareLiteral name value).release name

/-- Settle literals one after the other; a value that is postponed blocks the later ones. -/
def settleEach (blocked : List String) : List (String × Literal) → ModuleState → ModuleState
  | [], state => state
  | (name, literal) :: rest, state =>
    if literal.dependsOn blocked then
      settleEach (if literal.isValue then name :: blocked else blocked) rest
        (state.postpone name literal)
    else settleEach blocked rest (state.settle name literal)

/-- The order in which literals are settled: values first, each kind in source order. -/
def settlementOrder (literals : List (String × Literal)) : List (String × Literal) :=
  literals.filter (·.2.isValue) ++ literals.filter (!·.2.isValue)

def settleLiterals (blocked : List String) (state : ModuleState) : ModuleState :=
  settleEach blocked (settlementOrder state.literals.entries) { state with literals := .empty }

end ModuleState

/-! ## Substitution -/

namespace Substitution

/-- The value of a declaration after substitution: symbols first, then the keyframes names of
animation properties. -/
def value (state : ModuleState) (content : Declaration) (text : String) : String :=
  let replaced := substituteSymbols state.symbols text
  if Keyframes.isAnimation content.name && !state.keyframes.isEmpty then
    Keyframes.renameAnimation state.keyframes replaced
  else replaced

def params (state : ModuleState) (name text : String) : String :=
  if Keyframes.isKeyframes name then text else substituteSymbols state.symbols text

mutual
def node (state : ModuleState) : Node → Node
  | .rule selector body location => .rule selector (nodes state body) location
  | .block name text body location =>
    .block name (params state name text) (nodes state body) location
  | .statement name text location => .statement name (params state name text) location
  | .declaration content =>
    .declaration { content with value := content.value.map (value state content) }
  | .comment text location => .comment text location

def nodes (state : ModuleState) : List Node → List Node
  | [] => []
  | first :: rest => node state first :: nodes state rest
end

end Substitution

end ScopedStyles
