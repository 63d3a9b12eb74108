import ScopedStyles.Pattern.Bracketed

/-!
Reading regular expressions: literals, classes, anchors, groups, choices and repetitions. What
cannot be read is no pattern, and neither is what goes too deep or gets too large when its
repetitions are written out.
-/

namespace ScopedStyles.Pattern

open Text

/-! ## Tokens -/

inductive GroupKind where
  | numbered
  | named (name : List Char)
  | unnumbered
deriving DecidableEq, Repr

inductive Token where
  | item (part : Part Pattern)
  | opening (kind : GroupKind)
  | closing
  | bar
  | repetition (least : Nat) (most : Option Nat)
deriving DecidableEq, Repr

namespace Token

def single (pattern : Pattern) : Token :=
  .item (.single pattern)

def groupName? : Token → Option (List Char)
  | .opening (.named name) => some name
  | _ => none

end Token

/-! ## Repetitions -/

/-- A number in decimal digits that fits in 32 bits, with blanks around it, and what follows it. -/
def number? (text : List Char) : Option (Nat × List Char) :=
  let inside := text.dropWhile isBlank
  let digits := inside.takeWhile Char.isDigit
  let value := digits.foldl (fun value digit => 10 * value + (digit.toNat - 48)) 0
  if digits.isEmpty || 4294967296 ≤ value then none
  else some (value, (inside.dropWhile Char.isDigit).dropWhile isBlank)

def bounds? (text : List Char) : Option (Token × List Char) :=
  match number? text with
  | none => none
  | some (least, '}' :: rest) => some (.repetition least (some least), rest)
  | some (least, ',' :: '}' :: rest) => some (.repetition least none, rest)
  | some (least, ',' :: rest) =>
    match number? rest with
    | some (most, '}' :: rest) =>
      if least ≤ most then some (.repetition least (some most), rest) else none
    | _ => none
  | some _ => none

/-- A question mark behind a repetition asks for the shortest match, which changes no answer. -/
def withoutShortest : List Char → List Char
  | '?' :: rest => rest
  | text => text

/-! ## Group names -/

def isNameStart (character : Char) : Bool :=
  character == '_' || isAlphabetic character

def isNameCharacter (character : Char) : Bool :=
  character == '_' || character == '.' || character == '[' || character == ']' ||
    isAlphanumeric character

def groupName? (text : List Char) : Option (List Char × List Char) :=
  match text.takeWhile (· != '>'), text.dropWhile (· != '>') with
  | first :: others, '>' :: rest =>
    if isNameStart first && others.all isNameCharacter then some (first :: others, rest) else none
  | _, _ => none

def namedOpening? (text : List Char) : Option (Token × List Char) :=
  (groupName? text).map fun (name, rest) => (.opening (.named name), rest)

/-! ## Splitting -/

def token? : List Char → Option (Token × List Char)
  | [] => none
  | '(' :: '?' :: ':' :: rest => some (.opening .unnumbered, rest)
  | '(' :: '?' :: 'P' :: '<' :: rest => namedOpening? rest
  | '(' :: '?' :: '<' :: rest => namedOpening? rest
  | '(' :: '?' :: _ => none
  | '(' :: rest => some (.opening .numbered, rest)
  | ')' :: rest => some (.closing, rest)
  | '|' :: rest => some (.bar, rest)
  | '^' :: rest => some (.single (.anchor .start), rest)
  | '$' :: rest => some (.single (.anchor .ending), rest)
  | '.' :: rest => some (.single (.character .anything), rest)
  | '*' :: rest => some (.repetition 0 none, withoutShortest rest)
  | '+' :: rest => some (.repetition 1 none, withoutShortest rest)
  | '?' :: rest => some (.repetition 0 (some 1), withoutShortest rest)
  | '{' :: rest => (bounds? rest).map fun (token, rest) => (token, withoutShortest rest)
  | '[' :: rest =>
    (class? rest).map fun (part, rest) => (.item ⟨.character part.value, part.depth⟩, rest)
  | '\\' :: letter :: rest => (escapeItem? letter).map fun item => (.single item, rest)
  | '\\' :: [] => none
  | letter :: rest => some (.single (.character (.ofCharacter letter)), rest)

def tokens? : (fuel : Nat) → List Char → Option (List Token)
  | _, [] => some []
  | 0, _ => none
  | fuel + 1, text =>
    match token? text with
    | none => none
    | some (token, rest) => (tokens? fuel rest).map (token :: ·)

/-! ## Building -/

/-- A group that is being read: the choices before the last bar, and the items behind it, last ones
first. -/
structure OpenGroup where
  kind : GroupKind
  choices : List (Part Pattern)
  items : List (Part Pattern)

namespace OpenGroup

def new (kind : GroupKind) : OpenGroup :=
  ⟨kind, [], []⟩

def push (group : OpenGroup) (item : Part Pattern) : OpenGroup :=
  { group with items := item :: group.items }

def sequence (group : OpenGroup) : Part Pattern :=
  .gather .empty .sequence group.items

def endChoice (group : OpenGroup) : OpenGroup :=
  { group with choices := group.sequence :: group.choices, items := [] }

def contents (group : OpenGroup) : Part Pattern :=
  .gather .empty .choice (group.sequence :: group.choices)

def close (group : OpenGroup) : Part Pattern :=
  group.contents.within fun pattern =>
    if group.kind = .unnumbered then pattern else .group pattern

end OpenGroup

def build? (outer : List OpenGroup) (group : OpenGroup) : List Token → Option (Part Pattern)
  | [] => if outer.isEmpty then some group.contents else none
  | .item item :: tokens => build? outer (group.push item) tokens
  | .opening kind :: tokens => build? (group :: outer) (.new kind) tokens
  | .closing :: tokens =>
    match outer with
    | [] => none
    | surrounding :: others => build? others (surrounding.push group.close) tokens
  | .bar :: tokens => build? outer group.endChoice tokens
  | .repetition least most :: tokens =>
    match group.items with
    | [] => none
    | item :: others =>
      let repeated := item.within fun body => body.repetition least most
      build? outer { group with items := repeated :: others } tokens

/-! ## Limits -/

def deepest : Nat := 250

def largest : Nat := 327680

/-- Read a regular expression. Names of groups occur once. -/
def parse? (text : String) : Option Pattern :=
  let characters := text.toList
  match tokens? characters.length characters with
  | none => none
  | some tokens =>
    if (tokens.filterMap Token.groupName?).Nodup then
      match build? [] (.new .unnumbered) tokens with
      | none => none
      | some part =>
        if part.depth ≤ deepest && part.value.size ≤ largest then some part.value else none
    else none

example : (parse? "src/(a|b)\\.css$").map (·.isFoundIn "/p/src/b.css") = some true := by
  decide +kernel
example : (parse? "[^/]x\x7b2\x7d").map (·.isFoundIn "/xx") = some false := by decide +kernel
example : parse? "*" = none ∧ parse? "(" = none := by decide +kernel
example : parse? "(?P<a>x)(?<a>y)" = none ∧ parse? "x\x7b999999\x7d" = none := by decide +kernel

end ScopedStyles.Pattern
