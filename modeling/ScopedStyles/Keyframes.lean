import ScopedStyles.Text.Cut
import ScopedStyles.Identifier.Mention
import ScopedStyles.Foundation.OrderedMap

/-!
Keyframes names: which at-rules introduce them, how the header names them, and where values of
animation properties mention them.
-/

namespace ScopedStyles

open Text

namespace Keyframes

/-- Words of animation values that are never keyframes names: the words every property takes, then
those of direction, fill mode, play state, timing, step position and iteration count. -/
def keywords : List String :=
  ["inherit", "initial", "revert", "revert-layer", "unset",
   "alternate", "alternate-reverse", "normal", "reverse",
   "backwards", "both", "forwards", "none",
   "paused", "running",
   "ease", "ease-in", "ease-in-out", "ease-out", "linear", "step-start", "step-end",
   "end", "jump-both", "jump-end", "jump-none", "jump-start", "start",
   "infinite"]

def animationProperties : List String :=
  ["animation", "animation-name", "-webkit-animation", "-webkit-animation-name",
   "-moz-animation", "-moz-animation-name"]

def isKeyframes (name : String) : Bool :=
  let name := (lowerAscii name).toList
  name == "keyframes".toList || "-keyframes".toList.isSuffixOf name

def isAnimation (property : String) : Bool :=
  animationProperties.contains property

structure Header where
  name : String
  isLocal : Bool
deriving DecidableEq, Repr

def inWrapper? (opening : String) (text : List Char) : Option (List Char) :=
  let length := opening.length
  if (text.take length).map Char.toLower = opening.toList ∧ text.getLast? = some ')' then
    some (trimCharacters ((text.drop length).dropLast))
  else none

/-- Read a header. A wrapper decides whether the name is scoped, except that a quoted name never
is; other names follow the surrounding mode. Quotes are taken off inside a wrapper only. -/
def readHeader (params : String) (localByDefault : Bool) : Header :=
  let trimmed := trim params
  match inWrapper? ":global(" trimmed.toList, inWrapper? ":local(" trimmed.toList with
  | some inside, _ => ⟨unquote (String.ofList inside), false⟩
  | none, some inside =>
    ⟨unquote (String.ofList inside), !isQuoted (String.ofList inside)⟩
  | none, none => ⟨trimmed, !isQuoted trimmed && localByDefault⟩

example : readHeader ":Local( 'a' )" true = ⟨"a", false⟩ := by decide +kernel
example : readHeader "'a'" true = ⟨"'a'", false⟩ := by decide +kernel

def renameAnimation (keyframes : OrderedMap String String) (value : String) : String :=
  renameMentions
    (fun word => if keywords.contains (lowerAscii word) then none else keyframes.get? word) value

end Keyframes

end ScopedStyles
