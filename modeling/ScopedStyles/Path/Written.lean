import ScopedStyles.Path.Basic

/-!
Paths as they are written. Joining and cutting keep the spelling: dots, double dots and repeated
slashes stay where they are. Two written paths with the same steps count as the same path, although
double dots may lead through different directories.
-/

namespace ScopedStyles.WrittenPath

inductive Step where
  | root
  /-- The dot that a relative path begins with; other dots are no steps. -/
  | here
  | up
  | name (name : String)
deriving DecidableEq, Repr

/-! ## Parts -/

def parts (path : String) : List String :=
  (Path.splitAt '/' path.toList).map String.ofList

def isIdle (part : String) : Bool :=
  part == "" || part == "."

def isAbsolute (path : String) : Bool :=
  path.toList.head? == some '/'

/-- The step that a path begins with, if it is not an ordinary one, and the parts behind it. -/
def cutLead (path : String) : Option Step × List String :=
  match parts path with
  | "" :: rest => if isAbsolute path then (some .root, rest) else (none, "" :: rest)
  | "." :: rest => (some .here, rest)
  | others => (none, others)

def stepOf (part : String) : Step :=
  if part = ".." then .up else .name part

def steps (path : String) : List Step :=
  let (lead, body) := cutLead path
  lead.toList ++ (body.filter (!isIdle ·)).map stepOf

/-! ## Joining and cutting -/

def join (base relative : String) : String :=
  if isAbsolute relative || base.isEmpty then relative
  else if base.toList.getLast? = some '/' then base ++ relative
  else base ++ "/" ++ relative

def trimEnd (parts : List String) : List String :=
  (parts.reverse.dropWhile isIdle).reverse

def dropSteps : Nat → List String → List String
  | 0, parts => parts
  | count + 1, parts => dropSteps count ((parts.dropWhile isIdle).drop 1)

/-- A path without the idle parts at its end; the root and the dot that it begins with stay. -/
def withoutIdleEnd (path : String) : String :=
  match cutLead path with
  | (some .root, body) => "/" ++ String.intercalate "/" (trimEnd body)
  | (some .here, body) => String.intercalate "/" ("." :: trimEnd body)
  | (_, body) => String.intercalate "/" (trimEnd body)

def behind? (base path : String) : Option String :=
  let (lead, body) := cutLead path
  let count := (steps base).length
  if count = 0 then some (withoutIdleEnd path)
  else if (steps path).take count = steps base then
    some (String.intercalate "/"
      (trimEnd ((dropSteps (count - lead.toList.length) body).dropWhile isIdle)))
  else none

def fileName? (path : String) : Option String :=
  match (steps path).getLast? with
  | some (.name name) => some name
  | _ => none

/-- The path without its last step; a root and the empty path have none to lose. -/
def parent? (path : String) : Option String :=
  let (lead, body) := cutLead path
  let kept := trimEnd ((trimEnd body).dropLast)
  match lead, (trimEnd body).isEmpty with
  | some .root, false => some ("/" ++ String.intercalate "/" kept)
  | some .here, false => some (String.intercalate "/" ("." :: kept))
  | some .here, true => some ""
  | none, false => some (String.intercalate "/" kept)
  | _, _ => none

example : behind? "/work" "/work//b/./a.css" = some "b/./a.css" := by decide +kernel
example : behind? "" "/." = some "/" ∧ behind? "" "./a/" = some "./a" := by decide +kernel
example : behind? "/work" "/work" = some "" ∧ behind? "/work" "/worker" = none := by decide +kernel
example : parent? "/w/./a.css" = some "/w" ∧ parent? "/a" = some "/" ∧ parent? "/" = none := by
  decide +kernel
example : join "/work/" "a" = "/work/a" ∧ join "/work" "" = "/work/" := by decide +kernel

end ScopedStyles.WrittenPath
