import ScopedStyles.Path.Basic
import ScopedStyles.Sheet.Node
import ScopedStyles.Text.Casing
import ScopedStyles.TokenTable

/-!
Exports: the keys under which a file hands out its names, each with the names joined by spaces.
-/

namespace ScopedStyles

open Text

abbrev Exports := OrderedMap String String

/-! ## Key conventions -/

namespace Words

/-- The words of a name: runs of letters and numbers, cut again where an uppercase letter follows a
lowercase letter or a digit. `current` is the word being read, last character first. -/
def cut (current : List Char) (afterLower : Bool) : List Char → List (List Char)
  | [] => if current.isEmpty then [] else [current.reverse]
  | character :: rest =>
    if !isAlphanumeric character then
      (if current.isEmpty then [] else [current.reverse]) ++ cut [] false rest
    else
      let lower := isLowercase character || character.isDigit
      if isUppercase character && afterLower && !current.isEmpty then
        current.reverse :: cut [character] lower rest
      else cut (character :: current) lower rest

def capitalize : List Char → List Char
  | [] => []
  | first :: rest => uppercaseCharacter first ++ rest

end Words

def camelCase (name : String) : String :=
  match (Words.cut [] false name.toList).map lowercase with
  | [] => ""
  | first :: others => String.ofList (first ++ others.flatMap Words.capitalize)

namespace Dashes

/-- Drop runs of dashes before word characters and uppercase what follows them; `dashes` counts the
dashes just passed. -/
def capitalize (dashes : Nat) : List Char → List Char
  | [] => List.replicate dashes '-'
  | character :: rest =>
    if character = '-' then capitalize (dashes + 1) rest
    else if dashes ≠ 0 && isWordCharacter character then
      uppercaseCharacter character ++ capitalize 0 rest
    else List.replicate dashes '-' ++ character :: capitalize 0 rest

end Dashes

/-- A name in which only dashes begin a word: `btn-primary_large` becomes `btnPrimary_large`. -/
def dashesCamelCase (name : String) : String :=
  String.ofList (Dashes.capitalize 0 name.toList)

example : camelCase "__FOO_bar-Baz" = "fooBarBaz" := by decide +kernel
example : dashesCamelCase "a--b_c-" = "aB_c-" := by decide +kernel

inductive Convention where
  | asIs
  | camelCase
  | camelCaseOnly
  | dashes
  | dashesOnly
  | custom (key : (name value : String) → (file : Path) → String)

namespace Convention

/-- Add a name and its value to the exports. A second key next to the name itself never replaces a
key that is present. -/
def extend (convention : Convention) (file : Path) (exported : Exports) (name value : String) :
    Exports :=
  match convention with
  | .asIs => exported.insert name value
  | .camelCase => (exported.insert name value).insertIfNew (ScopedStyles.camelCase name) value
  | .camelCaseOnly => exported.insert (ScopedStyles.camelCase name) value
  | .dashes => (exported.insert name value).insertIfNew (dashesCamelCase name) value
  | .dashesOnly => exported.insert (dashesCamelCase name) value
  | .custom key => exported.insert (key name value file) value

end Convention

namespace Exports

def ofTable (table : TokenTable) (convention : Convention) (file : Path) : Exports :=
  table.toList.foldl
    (fun exported (name, entry) => convention.extend file exported name entry.joined)
    OrderedMap.empty

def toRule (exported : Exports) : Node :=
  .rule ":export"
    (exported.entries.map fun (key, value) => .declaration ⟨key, some value, .start⟩) .start

end Exports

structure StructuredExport where
  name : String
  own : String
  composes : List String
deriving DecidableEq, Repr

def TokenTable.structured (table : TokenTable) : List StructuredExport :=
  table.toList.map fun (name, entry) => ⟨name, entry.primary, entry.composed⟩

end ScopedStyles
