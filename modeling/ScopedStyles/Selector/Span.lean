import ScopedStyles.Identifier.Escape

/-!
Spans of a selector that are taken as a whole: names, strings and attribute brackets, and groups in
parentheses. Each reader answers with the span and what follows it, and loses nothing.
-/

namespace ScopedStyles.Selector

open Text

/-! ## Names -/

def startsName (character : Char) : Bool :=
  character.isAlpha || character == '_' || character == '-' || character == '\\' ||
    isWide character

/-- The longest run of identifier characters and escapes. -/
def spanName : List Char → List Char × List Char
  | [] => ([], [])
  | character :: rest =>
    if character = '\\' then
      let span := spanName (Identifier.readEscape rest).rest
      (character :: ((Identifier.readEscape rest).spelling ++ span.1), span.2)
    else if Identifier.isCharacter character then
      let span := spanName rest
      (character :: span.1, span.2)
    else ([], character :: rest)
termination_by text => text.length
decreasing_by
  · exact Nat.lt_succ_of_le (Identifier.length_rest_readEscape_le rest)
  · exact Nat.lt_succ_self _

theorem spanName_append (text : List Char) : (spanName text).1 ++ (spanName text).2 = text := by
  fun_induction spanName text with
  | case1 => rfl
  | case2 rest span induction =>
    have whole := Identifier.spelling_append_rest_readEscape rest
    simp only [span, List.cons_append, List.append_assoc, induction, whole]
  | case3 character rest plain member span induction =>
    simp only [span, List.cons_append, induction]
  | case4 => rfl

/-! ## Shields

Parentheses and commas mean nothing inside strings and attribute brackets, or behind a backslash. -/

inductive Guard where
  | string (quote : Char)
  | bracket
  | bracketString (quote : Char)
deriving DecidableEq, Repr

structure Shield where
  guard : Option Guard
  escaped : Bool
deriving DecidableEq, Repr

namespace Shield

def none : Shield := ⟨.none, false⟩

def isBare (shield : Shield) : Bool :=
  shield.guard.isNone && !shield.escaped

def opened (character : Char) : Option Guard :=
  if isQuote character then some (.string character)
  else if character = '[' then some .bracket
  else .none

def next (shield : Shield) (character : Char) : Shield :=
  if shield.escaped then ⟨shield.guard, false⟩
  else if character = '\\' then ⟨shield.guard, true⟩
  else
    match shield.guard with
    | .none => ⟨opened character, false⟩
    | some (.string quote) => ⟨if character = quote then .none else some (.string quote), false⟩
    | some .bracket =>
      if character = ']' then none
      else ⟨some (if isQuote character then .bracketString character else .bracket), false⟩
    | some (.bracketString quote) =>
      ⟨some (if character = quote then .bracket else .bracketString quote), false⟩

end Shield

def spanShield (shield : Shield) : List Char → List Char × List Char
  | [] => ([], [])
  | character :: rest =>
    if (shield.next character).guard.isNone then ([character], rest)
    else
      let span := spanShield (shield.next character) rest
      (character :: span.1, span.2)

theorem spanShield_append (shield : Shield) (text : List Char) :
    (spanShield shield text).1 ++ (spanShield shield text).2 = text := by
  induction text generalizing shield with
  | nil => rfl
  | cons character rest induction =>
    rw [spanShield]
    split
    · rfl
    · simp only [List.cons_append, induction]

/-! ## Groups -/

/-- The inside of a parenthesis through its end; `depth` counts the parentheses opened in it. -/
def spanGroup (depth : Nat) (shield : Shield) : List Char → List Char × List Char
  | [] => ([], [])
  | character :: rest =>
    if shield.isBare && character = ')' && depth = 0 then ([character], rest)
    else
      let depth :=
        if shield.isBare && character = '(' then depth + 1
        else if shield.isBare && character = ')' then depth - 1
        else depth
      let span := spanGroup depth (shield.next character) rest
      (character :: span.1, span.2)

theorem spanGroup_append (depth : Nat) (shield : Shield) (text : List Char) :
    (spanGroup depth shield text).1 ++ (spanGroup depth shield text).2 = text := by
  induction text generalizing depth shield with
  | nil => rfl
  | cons character rest induction =>
    rw [spanGroup]
    split
    · rfl
    · simp only [List.cons_append, induction]

/-- A group in parentheses at the beginning of a text, if one opens there. -/
def spanArguments : List Char → List Char × List Char
  | '(' :: rest =>
    let span := spanGroup 0 .none rest
    ('(' :: span.1, span.2)
  | text => ([], text)

theorem spanArguments_append (text : List Char) :
    (spanArguments text).1 ++ (spanArguments text).2 = text := by
  fun_cases spanArguments text with
  | case1 rest span => simp only [span, List.cons_append, spanGroup_append]
  | case2 => rfl

def withoutClosing (inside : List Char) : List Char :=
  if inside.getLast? = some ')' then inside.dropLast else inside

theorem length_withoutClosing_le (inside : List Char) :
    (withoutClosing inside).length ≤ inside.length := by
  unfold withoutClosing
  split
  · simp
  · exact Nat.le_refl _

/-! ## Lengths -/

theorem length_le_of_append {left right whole : List Char} (equal : left ++ right = whole) :
    left.length ≤ whole.length ∧ right.length ≤ whole.length := by
  subst equal
  simp

end ScopedStyles.Selector
