import ScopedStyles.Text.Character

/-!
Cutting texts at their top level: lists at commas, and strings out of their quotes.
-/

namespace ScopedStyles.Text

/-! ## Comma lists

A comma separates items unless it stands inside parentheses, brackets or a string, or is escaped.
More closing than opening brackets count as none. -/

structure CutState where
  depth : Int
  quote : Option Char
  escaped : Bool
deriving DecidableEq, Repr

namespace CutState

def initial : CutState := ⟨0, none, false⟩

def separates (state : CutState) : Bool :=
  !state.escaped && state.quote.isNone && state.depth ≤ 0

def next (state : CutState) (character : Char) : CutState :=
  if state.escaped then { state with escaped := false }
  else if character = '\\' then { state with escaped := true }
  else
    match state.quote with
    | some quote => if character = quote then { state with quote := none } else state
    | none =>
      if isQuote character then { state with quote := some character }
      else if character = '(' || character = '[' then { state with depth := state.depth + 1 }
      else if character = ')' || character = ']' then { state with depth := state.depth - 1 }
      else state

end CutState

/-- The items of a comma list, read from a state inside it. There is always at least one. -/
def cutCommas (state : CutState) : List Char → List (List Char)
  | [] => [[]]
  | character :: rest =>
    if character = ',' && state.separates then [] :: cutCommas state rest
    else
      match cutCommas (state.next character) rest with
      | [] => [[character]]
      | item :: items => (character :: item) :: items

def commaItems (text : List Char) : List (List Char) :=
  cutCommas .initial text

def splitCommas (text : String) : List String :=
  (commaItems text.toList).map String.ofList

example : splitCommas ".a,:not(.b,.c)" = [".a", ":not(.b,.c)"] := by decide
example : splitCommas "'a,b',)," = ["'a,b'", ")", ""] := by decide

theorem cutCommas_ne_nil (state : CutState) (text : List Char) : cutCommas state text ≠ [] := by
  cases text with
  | nil => exact List.cons_ne_nil _ _
  | cons character rest =>
    rw [cutCommas]
    split
    · exact List.cons_ne_nil _ _
    · split <;> exact List.cons_ne_nil _ _

theorem sublist_of_mem_cutCommas {state : CutState} {text item : List Char}
    (member : item ∈ cutCommas state text) : item.Sublist text := by
  induction text generalizing state item with
  | nil =>
    rw [cutCommas, List.mem_singleton] at member
    subst member
    exact .slnil
  | cons character rest induction =>
    rw [cutCommas] at member
    split at member
    · rcases List.mem_cons.mp member with rfl | member
      · exact List.nil_sublist _
      · exact .cons _ (induction member)
    · split at member
      · rw [List.mem_singleton] at member
        subst member
        exact .cons_cons _ (List.nil_sublist rest)
      · rename_i first items cut
        rcases List.mem_cons.mp member with rfl | member
        · exact .cons_cons _ (induction (cut ▸ List.mem_cons_self))
        · exact .cons _ (induction (cut ▸ List.mem_cons_of_mem first member))

theorem length_le_of_mem_commaItems {text item : List Char} (member : item ∈ commaItems text) :
    item.length ≤ text.length :=
  (sublist_of_mem_cutCommas member).length_le

/-! ## Quotes -/

def betweenQuotes? : List Char → Option (List Char)
  | [] => none
  | first :: rest =>
    if isQuote first && rest.getLast? == some first then some rest.dropLast else none

def isQuoted (text : String) : Bool :=
  (betweenQuotes? (trimCharacters text.toList)).isSome

/-- Trim a text and take off one pair of matching quotes. -/
def unquote (text : String) : String :=
  let trimmed := trimCharacters text.toList
  String.ofList ((betweenQuotes? trimmed).getD trimmed)

example : unquote " 'x' " = "x" := by decide
example : unquote "'" = "'" ∧ unquote "'x\"" = "'x\"" := by decide

end ScopedStyles.Text
