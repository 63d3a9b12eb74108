import ScopedStyles.Foundation.OrderedMap

/-!
Token tables: for every name that a file exports, the scoped names it stands for. An entry has one
name of its own and an ordered set of names added by composition.
-/

namespace ScopedStyles

inductive TokenKind where
  | localName
  | globalName
  | literal
deriving DecidableEq, Repr

structure TokenEntry where
  primary : String
  /-- The names added by composition, in order, without repetition. -/
  composed : List String
  kind : TokenKind
  composedLocal : Bool
  composedExternal : Bool
deriving DecidableEq, Repr

inductive Origin where
  | own
  | composedLocal
  | composedExternal
deriving DecidableEq, Repr

namespace TokenEntry

def plain (kind : TokenKind) (primary : String) : TokenEntry :=
  ⟨primary, [], kind, false, false⟩

def names (entry : TokenEntry) : List String :=
  entry.primary :: entry.composed

def joined (entry : TokenEntry) : String :=
  String.intercalate " " entry.names

def isLiteral (entry : TokenEntry) : Bool :=
  entry.kind == .literal

def origin (entry : TokenEntry) : Origin :=
  if entry.composedExternal then .composedExternal
  else if entry.composedLocal then .composedLocal
  else .own

/-- Add names by composition; the entry's own name and names already present are skipped. -/
def add (entry : TokenEntry) (names : List String) (isExternal : Bool) : TokenEntry :=
  { entry with
    composed := names.foldl
      (fun composed name => if name = entry.primary then composed else addNew name composed)
      entry.composed
    composedLocal := entry.composedLocal || !isExternal
    composedExternal := entry.composedExternal || isExternal }

def rename (entry : TokenEntry) (generated : String) : TokenEntry :=
  { entry with
    primary := generated
    composed := entry.composed.filter (· ≠ generated)
    kind := .localName }

end TokenEntry

structure TokenTable where
  entries : OrderedMap String TokenEntry
deriving DecidableEq, Repr

namespace TokenTable

def empty : TokenTable := ⟨.empty⟩

instance : Inhabited TokenTable := ⟨empty⟩

def get? (table : TokenTable) (name : String) : Option TokenEntry :=
  table.entries.get? name

def contains (table : TokenTable) (name : String) : Bool :=
  table.entries.contains name

def keys (table : TokenTable) : List String :=
  table.entries.keys

def size (table : TokenTable) : Nat :=
  table.entries.size

def toList (table : TokenTable) : List (String × TokenEntry) :=
  table.entries.entries

def put (table : TokenTable) (name : String) (entry : TokenEntry) : TokenTable :=
  ⟨table.entries.insert name entry⟩

/-- Record a generated name. A class that is declared again keeps its composed names; a literal is
replaced. -/
def declareLocal (table : TokenTable) (name generated : String) : TokenTable :=
  match table.get? name with
  | some entry =>
    if entry.isLiteral then table.put name (.plain .localName generated)
    else table.put name (entry.rename generated)
  | none => table.put name (.plain .localName generated)

def declareGlobal (table : TokenTable) (name : String) : TokenTable :=
  if table.contains name then table else table.put name (.plain .globalName name)

def declareLiteral (table : TokenTable) (name value : String) : TokenTable :=
  table.put name (.plain .literal value)

/-- Add names to an entry; a name without an entry becomes a local one that stands for itself. -/
def compose (table : TokenTable) (name : String) (names : List String) (isExternal : Bool) :
    TokenTable :=
  let entry := (table.get? name).getD (.plain .localName name)
  table.put name (entry.add names isExternal)

example :
    let table := ((empty.declareLocal "a" "a1").compose "a" ["b", "a1", "b"] true).declareLocal
      "a" "a2"
    table.toList.map (fun entry => entry.2.joined) = ["a2 b"] := by decide +kernel

end TokenTable

end ScopedStyles
