import ScopedStyles.Foundation.OrderedMap
import ScopedStyles.Path.Basic

/-!
Finding the file that a specifier means. Specifiers that begin at a root or with a dot directory
name one file; all others are looked for beside the importing file and then in the package
directories above it, nearest first.
-/

namespace ScopedStyles

open Text

/-! ## Files -/

structure Files where
  contents : OrderedMap Path String
  directory : Path

namespace Files

def ofList (directory : Path) (pairs : List (String × String)) : Files :=
  ⟨.ofList (pairs.map fun (path, content) => (.parse path, content)), directory⟩

def has (files : Files) (path : Path) : Bool :=
  files.contents.contains path

def absent (path : Path) : String :=
  "file not found: " ++ path.text

def read (files : Files) (path : Path) : Except String String :=
  match files.contents.get? path with
  | some content => .ok content
  | none => .error (absent path)

end Files

/-! ## Specifiers -/

namespace Specifier

def scheme? (specifier : List Char) : Option (List Char) :=
  let run := specifier.takeWhile fun character =>
    !(character == ':' || character == '/' || character == '?' || character == '#')
  if !run.isEmpty && (specifier.drop run.length).head? == some ':' then some run else none

/-- Whether a specifier can mean a file: it is not blank, and what looks like a scheme is the
letter of a drive. -/
def isResolvable (specifier : String) : Bool :=
  if specifier.toList.all isBlank then false
  else
    match scheme? specifier.toList with
    | some [letter] => letter.isAlpha
    | some _ => false
    | none => true

example : isResolvable "C:/a.css" = true ∧ isResolvable "http://a" = false := by decide +kernel

def isFixed (specifier : String) : Bool :=
  Path.isRooted specifier || "./".toList.isPrefixOf specifier.toList ||
    "../".toList.isPrefixOf specifier.toList

/-- What to look for, and whether only in package directories: a tilde says so. -/
def package (specifier : String) : String × Bool :=
  match specifier.toList with
  | '~' :: rest => (String.ofList (rest.dropWhile (· = '/')), true)
  | _ => (specifier, false)

def candidates (directory : Path) (specifier : String) : List Path :=
  if isFixed specifier then [directory.resolve specifier]
  else
    let (bare, packageOnly) := package specifier
    (if packageOnly then [] else [directory.resolve bare]) ++
      directory.upward.map fun above => (above.resolve "node_modules").resolve bare

def notFound (directory : Path) (specifier : String) : String :=
  if isFixed specifier then Files.absent (directory.resolve specifier)
  else "not found relative to " ++ directory.text ++ " or in any node_modules directory"

end Specifier

inductive Resolver where
  | nearest
  /-- The specifier between two texts, read as a path. -/
  | theme (before behind : String)
deriving DecidableEq

namespace Resolver

/-- The path that a specifier means in the file `source` when these files are `present`, or the
reason why there is none. -/
def locate (resolver : Resolver) (present : Path → Bool) (specifier : String) (source : Path) :
    Except String Path :=
  match resolver with
  | .nearest =>
    if Specifier.isResolvable specifier then
      match (Specifier.candidates source.directory specifier).find? present with
      | some path => .ok path
      | none => .error (Specifier.notFound source.directory specifier)
    else .error "specifiers with a URL scheme cannot be resolved"
  | .theme before behind =>
    let path := Path.parse (before ++ specifier ++ behind)
    if present path then .ok path else .error ("no theme named " ++ specifier)

def resolve (resolver : Resolver) (files : Files) (specifier : String) (source : Path) :
    Except String Path :=
  resolver.locate files.has specifier source

end Resolver

end ScopedStyles
