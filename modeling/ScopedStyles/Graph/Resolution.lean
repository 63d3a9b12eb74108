import ScopedStyles.Graph.Basic
import ScopedStyles.Module.Settlement

/-!
Resolving what a file takes from other files and from its own compositions. Imports come first, so
that literals that mention them can be settled; then each owner of compositions is resolved after
the names that it composes. A file that is still being compiled answers for its settled names; the
others are settled on demand, in that file.
-/

namespace ScopedStyles

structure Calls where
  /-- The file that a specifier means, compiled unless it has been asked for before. -/
  load : (specifier : String) → (importer : Path) → Location → Compiling Handle
  resolveOwner : Site → (owner : String) → Compiling Unit

namespace Resolution

open Compiling

/-! ## Cycles -/

def qualified (path : Path) (name : String) : String :=
  path.text ++ ":" ++ name

def inOneFile : List (Path × String) → Bool
  | [] => true
  | (path, _) :: rest => rest.all (·.1 = path)

/-- The names of a cycle, with their files unless all stand in one file. -/
def chainNames (chain : List (Path × String)) : List String :=
  if inOneFile chain then chain.map Prod.snd
  else chain.map fun (path, name) => qualified path name

/-! ## Names of other files -/

def ask (handle : Handle) (name : String) : Compiling Lookup := do
  let answer := (← get).lookup handle name
  unless handle.isReady do note (.answered handle.path name answer)
  return answer

/-- Settle a name of a file that is still being compiled: resolve its compositions if it has any,
otherwise settle the literals that wait for no import. -/
def settleInFlight (calls : Calls) (path : Path) (name : String) : Compiling Unit := do
  let state ← stateAt (.file path)
  if state.compositions.contains name then calls.resolveOwner (.file path) name
  else
    let blocked := (state.imports.map ImportReference.localName).filter
      (!state.symbols.contains ·)
    update (.file path) (ModuleState.settleLiterals blocked)

def lookUp (calls : Calls) (site : Site) (handle : Handle) (name requester specifier : String)
    (location : Location) : Compiling TokenEntry := do
  let answer ← ask handle name
  let answer ←
    if answer = .unsettled then do
      settleInFlight calls handle.path name
      ask handle name
    else pure answer
  match answer with
  | .found entry => return entry
  | .unsettled =>
    fail site location (.cyclicComposition requester
      [qualified site.path requester, qualified handle.path name, qualified site.path requester])
  | .missing => fail site location (.missingExport name specifier)

/-! ## Compositions -/

def localNames (calls : Calls) (site : Site) (name : String) (location : Location) :
    Compiling (List String × Bool) := do
  calls.resolveOwner site name
  let state ← stateAt site
  match state.table.get? name, state.classAliases.get? name with
  | some entry, _ =>
    if entry.isLiteral then fail site location (.composesLiteral name)
    else return (entry.names, false)
  | none, some names => return (names, true)
  | none, none =>
    if state.symbols.contains name then fail site location (.composesLiteral name)
    else
      match state.importOf? name with
      | some reference =>
        fail site location (.cyclicComposition name
          [qualified site.path name,
            reference.specifier ++ ":" ++ reference.imported,
            qualified site.path name])
      | none => fail site location (.missingExport name site.path.text)

def referenceNames (calls : Calls) (site : Site) (owner : String) (location : Location)
    (reference : Reference) : Compiling (List String × Bool) :=
  match reference.source with
  | .sameFile => localNames calls site reference.name location
  | .passThrough => return ([reference.name], true)
  | .file specifier => do
    let handle ← calls.load specifier site.path location
    let entry ← lookUp calls site handle reference.name owner specifier location
    if entry.isLiteral then fail site location (.composesLiteral reference.name)
    else return (entry.names, true)

/-- The names that a composition adds: the first name of each reference, then all the others. -/
def mergeNames (parts : List (List String)) : List String :=
  parts.filterMap List.head? ++ parts.flatMap List.tail

example : mergeNames [["a", "b"], ["c", "d"]] = ["a", "c", "b", "d"] := rfl

def compose (calls : Calls) (site : Site) (owner : String) (composition : Composition) :
    Compiling Unit := do
  let parts ← composition.references.mapM
    (referenceNames calls site owner composition.location)
  update site (·.compose owner (mergeNames (parts.map Prod.fst)) (parts.any Prod.snd))

def cyclic (site : Site) (owner : String) (compositions : List Composition)
    (chain : List (Path × String)) : Halt :=
  let location := (compositions.head?.map Composition.location).getD .start
  .failed ⟨site.path, location, .cyclicComposition owner (chainNames chain)⟩

def resolveOwner (calls : Calls) (site : Site) (owner : String) : Compiling Unit := do
  let state ← stateAt site
  unless state.isSettled owner do
    let compositions := state.compositionsOf owner
    whileResolving site.path owner (cyclic site owner compositions)
      (compositions.forM (compose calls site owner))
    update site (·.release owner)

/-! ## A whole file -/

def resolveImport (calls : Calls) (site : Site) (reference : ImportReference) :
    Compiling Unit := do
  let handle ← calls.load reference.specifier site.path reference.location
  let entry ← lookUp calls site handle reference.imported reference.localName reference.specifier
    reference.location
  update site (·.recordImported reference.localName entry)

def resolve (calls : Calls) (site : Site) : Compiling Unit := do
  (← stateAt site).imports.forM (resolveImport calls site)
  update site (ModuleState.settleLiterals [])
  (← stateAt site).compositions.keys.forM (calls.resolveOwner site)

end Resolution

end ScopedStyles
