import ScopedStyles.Sheet.Prelude

/-!
Reading a stylesheet as a flat sequence of events: blocks that open, blocks that close, and nodes
without a block. The reader works on located characters, so every node takes its location from the
character it begins with. It accepts any text.
-/

namespace ScopedStyles

open Text

/-! ## Declarations -/

/-- Where a character of a declaration stands: bracket depth, open string, escaped or not. -/
structure ColonState where
  depth : Nat
  quote : Option Char
  escaped : Bool
deriving DecidableEq, Repr

namespace ColonState

def initial : ColonState := ⟨0, none, false⟩

def separates (state : ColonState) : Bool :=
  !state.escaped && state.quote.isNone && state.depth == 0

def next (state : ColonState) (character : Char) : ColonState :=
  if state.escaped then { state with escaped := false }
  else if character = '\\' then { state with escaped := true }
  else
    match state.quote with
    | some quote => if character = quote then { state with quote := none } else state
    | none =>
      if isQuote character then { state with quote := some character }
      else if character = '(' || character = '[' then { state with depth := state.depth + 1 }
      else if character = ')' || character = ']' then { state with depth := state.depth - 1 }
      else state

end ColonState

/-- The texts on both sides of the first colon outside brackets and strings, if there is one. -/
def cutColon (state : ColonState) : List Char → Option (List Char × List Char)
  | [] => none
  | character :: rest =>
    if character = ':' && state.separates then some ([], rest)
    else (cutColon (state.next character) rest).map fun (before, after) =>
      (character :: before, after)

def Declaration.ofText (text : List Char) (location : Location) : Declaration :=
  match cutColon .initial text with
  | some (property, value) =>
    ⟨String.ofList (trimCharacters property), some (String.ofList (trimCharacters value)), location⟩
  | none => ⟨String.ofList text, none, location⟩

/-! ## Events -/

inductive Opening where
  | rule (selector : String) (location : Location)
  | block (name params : String) (location : Location)
deriving DecidableEq, Repr

namespace Opening

def location : Opening → Location
  | .rule _ location => location
  | .block _ _ location => location

def close (opening : Opening) (body : List Node) : Node :=
  match opening with
  | .rule selector location => .rule selector body location
  | .block name params location => .block name params body location

end Opening

inductive Event where
  | opens (opening : Opening)
  | leaf (node : Node)
  | closes
deriving Repr

namespace Event

/-- The text of a comment, read behind its opening, and what follows its end. A comment that does
not end takes everything. -/
def spanComment : List LocatedCharacter → List Char × List LocatedCharacter
  | [] => ([], [])
  | first :: rest =>
    if Region.closesComment first.character (Prelude.following rest) then ([], rest.drop 1)
    else
      let span := spanComment rest
      (first.character :: span.1, span.2)

theorem length_spanComment_le (text : List LocatedCharacter) :
    (spanComment text).2.length ≤ text.length := by
  induction text with
  | nil => simp [spanComment]
  | cons first rest induction =>
    rw [spanComment]
    split
    · simp only [List.length_drop, List.length_cons]
      omega
    · exact Nat.le_succ_of_le induction

def isNameCharacter (character : Char) : Bool :=
  isAlphanumeric character || character == '-' || character == '_'

def ofAtRule (name : List Char) (prelude : Prelude) (location : Location) : List Event :=
  let name := String.ofList name
  let params := String.ofList (trimCharacters prelude.text)
  match prelude.terminator with
  | .opening => [.opens (.block name params location)]
  | .closing => [.leaf (.statement name params location), .closes]
  | _ => [.leaf (.statement name params location)]

def ofStatement (text : List Char) (location : Location) : List Event :=
  let trimmed := trimCharacters text
  if trimmed.isEmpty then [] else [.leaf (.declaration (.ofText trimmed location))]

def ofPrelude (prelude : Prelude) (location : Location) : List Event :=
  match prelude.terminator with
  | .opening => [.opens (.rule (String.ofList (trimCharacters prelude.text)) location)]
  | .closing => ofStatement prelude.text location ++ [.closes]
  | _ => ofStatement prelude.text location

def afterName (text : List LocatedCharacter) : List LocatedCharacter :=
  text.dropWhile fun entry => isNameCharacter entry.character

theorem length_afterName_le (text : List LocatedCharacter) :
    (afterName text).length ≤ text.length :=
  (List.dropWhile_suffix _).length_le

def nameOf (text : List LocatedCharacter) : List Char :=
  (text.map LocatedCharacter.character).takeWhile isNameCharacter

def scan : List LocatedCharacter → List Event
  | [] => []
  | first :: rest =>
    if isBlank first.character || first.character = ';' then scan rest
    else if first.character = '}' then .closes :: scan rest
    else if Region.opensComment first.character (Prelude.following rest) then
      let span := spanComment (rest.drop 1)
      .leaf (.comment (String.ofList span.1) first.location) :: scan span.2
    else if first.character = '@' then
      let prelude := Prelude.read (afterName rest)
      ofAtRule (nameOf rest) prelude first.location ++ scan prelude.rest
    else
      let prelude := Prelude.read (first :: rest)
      ofPrelude prelude first.location ++ scan prelude.rest
termination_by text => text.length
decreasing_by
  · exact Nat.lt_succ_self _
  · exact Nat.lt_succ_self _
  · have shorter := length_spanComment_le (rest.drop 1)
    simp only [List.length_drop] at shorter
    exact Nat.lt_succ_of_le (Nat.le_trans shorter (Nat.sub_le _ _))
  · exact Nat.lt_succ_of_le
      (Nat.le_trans (Prelude.length_rest_read_le _) (length_afterName_le rest))
  · exact Prelude.length_rest_read_lt first rest

end Event

end ScopedStyles
