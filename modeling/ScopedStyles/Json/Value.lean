import ScopedStyles.Json.Token

/-!
JSON values. What a number is worth is not kept.
-/

namespace ScopedStyles

inductive JsonValue where
  | null
  | boolean (value : Bool)
  | number
  /-- A text, nothing if it spells a lone surrogate. -/
  | text (content : Option String)
  | list (items : List JsonValue)
  /-- Keys and values as written, with repetitions. -/
  | object (members : List (Option String × JsonValue))
deriving Repr, Inhabited

namespace JsonValue

open Json

mutual
def read? : (fuel : Nat) → List Token → Option (JsonValue × List Token)
  | _, .null :: rest => some (.null, rest)
  | _, .boolean value :: rest => some (.boolean value, rest)
  | _, .number :: rest => some (.number, rest)
  | _, .quoted content :: rest => some (.text content, rest)
  | _, .openList :: .closeList :: rest => some (.list [], rest)
  | fuel + 1, .openList :: rest =>
    (readItems? fuel rest).map fun (items, rest) => (.list items, rest)
  | _, .openObject :: .closeObject :: rest => some (.object [], rest)
  | fuel + 1, .openObject :: rest =>
    (readMembers? fuel rest).map fun (members, rest) => (.object members, rest)
  | _, _ => none

def readItems? : (fuel : Nat) → List Token → Option (List JsonValue × List Token)
  | 0, _ => none
  | fuel + 1, tokens =>
    match read? fuel tokens with
    | some (item, .comma :: rest) =>
      (readItems? fuel rest).map fun (items, rest) => (item :: items, rest)
    | some (item, .closeList :: rest) => some ([item], rest)
    | _ => none

def readMembers? :
    (fuel : Nat) → List Token → Option (List (Option String × JsonValue) × List Token)
  | fuel + 1, .quoted key :: .colon :: tokens =>
    match read? fuel tokens with
    | some (value, .comma :: rest) =>
      (readMembers? fuel rest).map fun (members, rest) => ((key, value) :: members, rest)
    | some (value, .closeObject :: rest) => some ([(key, value)], rest)
    | _ => none
  | _, _ => none
end

/-- The value that a text spells, white space around it allowed. Reading a value goes two levels
deeper per token at most. -/
def parse? (text : String) : Option JsonValue :=
  match Token.ofText? text with
  | none => none
  | some tokens =>
    match read? (2 * tokens.length) tokens with
    | some (value, []) => some value
    | _ => none

end JsonValue

/-! ## Writing -/

namespace Json

def object (members : List (String × String)) : String :=
  "\x7b" ++ String.intercalate "," (members.map fun (key, value) => quote key ++ ":" ++ value) ++
    "\x7d"

def list (items : List String) : String :=
  "[" ++ String.intercalate "," items ++ "]"

def objectOnLines (level : Nat) (members : List (String × String)) : String :=
  if members.isEmpty then "\x7b\x7d"
  else
    let margin := String.ofList (List.replicate (2 * level) ' ')
    let lines := members.map fun (key, value) => margin ++ "  " ++ quote key ++ ": " ++ value
    "\x7b\n" ++ String.intercalate ",\n" lines ++ "\n" ++ margin ++ "\x7d"

example : object [("a", quote "b")] = "\x7b\"a\":\"b\"\x7d" := by decide +kernel

end Json

end ScopedStyles
