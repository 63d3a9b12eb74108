import ScopedStyles.Foundation.OrderedMap
import ScopedStyles.Module.Composition
import ScopedStyles.TokenTable

/-!
What is known about a file while it is compiled: the entries it exports, and the names, literals
and imports that wait to be settled.
-/

namespace ScopedStyles

structure ImportReference where
  specifier : String
  imported : String
  localName : String
  location : Location
deriving DecidableEq, Repr

structure Literal where
  raw : String
  /-- Values are substituted where they are mentioned; exported literals are not. -/
  isValue : Bool
  location : Location
deriving DecidableEq, Repr

structure ModuleState where
  table : TokenTable
  compositions : OrderedMap String (List Composition)
  /-- Names whose entries are not settled. -/
  pending : List String
  imports : List ImportReference
  /-- Aliases of imported values; they are exported as well. -/
  valueAliases : List String
  literals : OrderedMap String Literal
  symbols : OrderedMap String String
  /-- The names behind each alias of an imported class. -/
  classAliases : OrderedMap String (List String)
  keyframes : OrderedMap String String
deriving DecidableEq, Repr

namespace ModuleState

def empty : ModuleState where
  table := .empty
  compositions := .empty
  pending := []
  imports := []
  valueAliases := []
  literals := .empty
  symbols := .empty
  classAliases := .empty
  keyframes := .empty

instance : Inhabited ModuleState := ⟨empty⟩

def isSettled (state : ModuleState) (name : String) : Bool :=
  !state.pending.contains name

def compositionsOf (state : ModuleState) (owner : String) : List Composition :=
  (state.compositions.get? owner).getD []

def importOf? (state : ModuleState) (localName : String) : Option ImportReference :=
  state.imports.find? fun reference => reference.localName = localName

/-! ## Waiting names -/

def await (state : ModuleState) (name : String) : ModuleState :=
  { state with pending := addNew name state.pending }

def release (state : ModuleState) (name : String) : ModuleState :=
  { state with pending := state.pending.filter (· ≠ name) }

/-! ## Recording -/

def declareLocal (state : ModuleState) (name generated : String) : ModuleState :=
  { state with table := state.table.declareLocal name generated }

def declareGlobal (state : ModuleState) (name : String) : ModuleState :=
  { state with table := state.table.declareGlobal name }

def declareLiteral (state : ModuleState) (name value : String) : ModuleState :=
  { state with table := state.table.declareLiteral name value }

def addSymbol (state : ModuleState) (name value : String) : ModuleState :=
  { state with symbols := state.symbols.insert name value }

/-- Record a literal; until it is settled its name waits and stands for the text as written. -/
def recordLiteral (state : ModuleState) (name : String) (literal : Literal) : ModuleState :=
  let waiting := (state.declareLiteral name literal.raw).await name
  { waiting with literals := waiting.literals.insert name literal }

def recordImport (state : ModuleState) (reference : ImportReference) : ModuleState :=
  { state with imports := state.imports ++ [reference] }

def recordValueImport (state : ModuleState) (reference : ImportReference) : ModuleState :=
  let name := reference.localName
  let waiting := (state.declareLiteral name name).await name
  { waiting with valueAliases := addNew name waiting.valueAliases }.recordImport reference

def recordComposition (state : ModuleState) (composition : Composition) (owner : String) :
    ModuleState :=
  { state with
    compositions :=
      state.compositions.insert owner (state.compositionsOf owner ++ [composition]) }.await owner

def recordKeyframes (state : ModuleState) (name generated : String) : ModuleState :=
  { state.declareLocal name generated with keyframes := state.keyframes.insert name generated }

/-- Record what an import stands for: the alias is a symbol; an imported value is exported, and the
names of an imported class can be composed. -/
def recordImported (state : ModuleState) (localName : String) (entry : TokenEntry) : ModuleState :=
  let known := state.addSymbol localName entry.joined
  if known.valueAliases.contains localName then
    (known.declareLiteral localName entry.joined).release localName
  else if entry.isLiteral then known
  else { known with classAliases := known.classAliases.insert localName entry.names }

def compose (state : ModuleState) (owner : String) (names : List String) (isExternal : Bool) :
    ModuleState :=
  { state with table := state.table.compose owner names isExternal }

end ModuleState

/-! ## Looking names up -/

inductive Lookup where
  | found (entry : TokenEntry)
  /-- The name exists, but what it stands for is not settled. -/
  | unsettled
  | missing
deriving DecidableEq, Repr

def TokenTable.lookup (table : TokenTable) (name : String) : Lookup :=
  match table.get? name with
  | some entry => .found entry
  | none => .missing

def ModuleState.lookup (state : ModuleState) (name : String) : Lookup :=
  if state.isSettled name then state.table.lookup name else .unsettled

end ScopedStyles
