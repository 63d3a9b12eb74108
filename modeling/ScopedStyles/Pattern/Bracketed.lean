import ScopedStyles.Pattern.Escape
import ScopedStyles.Pattern.Part

/-!
Character classes in brackets: members, ranges, named classes, classes within classes, and the
operations that stand between them. Operations are read from left to right, none before another.
-/

namespace ScopedStyles.Pattern

/-! ## Members -/

inductive ClassMember where
  | single (character : Char)
  | escaped (characters : CharacterClass)
deriving DecidableEq, Repr

namespace ClassMember

def characters : ClassMember → CharacterClass
  | .single letter => .ofCharacter letter
  | .escaped characters => characters

def range? : ClassMember → ClassMember → Option CharacterClass
  | .single first, .single last => if first ≤ last then some (.range first last) else none
  | _, _ => none

def read? : List Char → Option (ClassMember × List Char)
  | [] => none
  | ['\\'] => none
  | '\\' :: letter :: rest =>
    match classEscape? letter, literalEscape? letter with
    | some characters, _ => some (.escaped characters, rest)
    | none, some literal => some (.single literal, rest)
    | none, none => none
  | letter :: rest => some (.single letter, rest)

end ClassMember

/-- Whether a range goes on behind its first member. A dash before the closing bracket is a member,
and two of them are an operation. -/
def continuesRange : List Char → Bool
  | '-' :: ']' :: _ => false
  | '-' :: '-' :: _ => false
  | '-' :: _ => true
  | _ => false

def classRange? (text : List Char) : Option (CharacterClass × List Char) :=
  match ClassMember.read? text with
  | none => none
  | some (first, rest) =>
    if continuesRange rest then
      match ClassMember.read? (rest.drop 1) with
      | none => none
      | some (last, rest) => (first.range? last).map fun characters => (characters, rest)
    else some (first.characters, rest)

def namedClass? : List Char → Option (CharacterClass × List Char)
  | ':' :: text =>
    let isNegated := text.head? == some '^'
    let inside := if isNegated then text.drop 1 else text
    match inside.dropWhile (· != ':') with
    | ':' :: ']' :: rest =>
      (CharacterClass.named? (String.ofList (inside.takeWhile (· != ':')))).map fun characters =>
        (if isNegated then .complement characters else characters, rest)
    | _ => none
  | _ => none

/-! ## Classes that are being read -/

/-- A class up to some place in it: the operation that waits for its right side, and the members
behind it, last one first. -/
structure OpenClass where
  isNegated : Bool
  waiting : Option (SetOperation × Part CharacterClass)
  members : List (Part CharacterClass)

namespace OpenClass

def push (current : OpenClass) (member : Part CharacterClass) : OpenClass :=
  { current with members := member :: current.members }

def contents (current : OpenClass) : Part CharacterClass :=
  let members := Part.gather .nothing (.combined .union) current.members
  match current.waiting with
  | none => members
  | some (operation, left) => .both (.combined operation) left members

def operate (current : OpenClass) (operation : SetOperation) : OpenClass :=
  { current with waiting := some (operation, current.contents), members := [] }

def close (current : OpenClass) : Part CharacterClass :=
  current.contents.within fun characters =>
    if current.isNegated then .complement characters else characters

/-- A class behind its opening bracket and what follows. Dashes at the beginning are members, and so
is a closing bracket there. -/
def start (text : List Char) : OpenClass × List Char :=
  let isNegated := text.head? == some '^'
  let inside := if isNegated then text.drop 1 else text
  let dashes := inside.takeWhile (· == '-')
  match dashes, inside.dropWhile (· == '-') with
  | [], ']' :: rest => (⟨isNegated, none, [.single (.ofCharacter ']')]⟩, rest)
  | _, rest => (⟨isNegated, none, dashes.map fun dash => .single (.ofCharacter dash)⟩, rest)

end OpenClass

/-! ## Reading -/

inductive ClassToken where
  | member (characters : CharacterClass)
  | operation (operation : SetOperation)
  | opening (current : OpenClass)
  | closing

def classToken? (text : List Char) : Option (ClassToken × List Char) :=
  match text with
  | ']' :: rest => some (.closing, rest)
  | '&' :: '&' :: rest => some (.operation .intersection, rest)
  | '-' :: '-' :: rest => some (.operation .difference, rest)
  | '~' :: '~' :: rest => some (.operation .symmetricDifference, rest)
  | '[' :: rest =>
    match namedClass? rest with
    | some (characters, rest) => some (.member characters, rest)
    | none =>
      let (current, rest) := OpenClass.start rest
      some (.opening current, rest)
  | text => (classRange? text).map fun (characters, rest) => (.member characters, rest)

/-- Read the class that is open, and what follows it, with at most as many tokens as `fuel`. The
classes around it are open too, and it becomes a member of the nearest one. -/
def readClass? (outer : List OpenClass) (current : OpenClass) :
    (fuel : Nat) → List Char → Option (Part CharacterClass × List Char)
  | 0, _ => none
  | fuel + 1, text =>
    match classToken? text with
    | none => none
    | some (.member characters, rest) =>
      readClass? outer (current.push (.single characters)) fuel rest
    | some (.operation operation, rest) => readClass? outer (current.operate operation) fuel rest
    | some (.opening inner, rest) => readClass? (current :: outer) inner fuel rest
    | some (.closing, rest) =>
      match outer with
      | [] => some (current.close, rest)
      | surrounding :: others => readClass? others (surrounding.push current.close) fuel rest

def class? (text : List Char) : Option (Part CharacterClass × List Char) :=
  let (current, rest) := OpenClass.start text
  readClass? [] current (rest.length + 1) rest

example : (class? "+-[]".toList).map (·.1.value) = some (.range '+' '[') := by decide +kernel
example : (class? "a-z&&[^aeiou]]".toList).map (·.1.value.holds 'e') = some false := by
  decide +kernel
example : (class? "[:alpha:]-]$".toList).map (·.2) = some ['$'] := by decide +kernel
example : class? "z-a]".toList = none ∧ class? "a[b]".toList = none := by decide +kernel

end ScopedStyles.Pattern
