import ScopedStyles.Selector.Annotation

/-!
Balanced texts. Read from the left, a balanced text closes every parenthesis, string and attribute
bracket that it opens, in the right order. What stands behind a selector of a list ends it: a comma,
a closing parenthesis or nothing.
-/

namespace ScopedStyles

open Text

namespace Selector

/-! ## Balanced texts -/

/-- Where reading stands: the parentheses that are open, and the shield inside the innermost. -/
structure Nesting where
  depth : Nat
  shield : Shield
deriving DecidableEq, Repr

namespace Nesting

/-- Outside parentheses, strings and attribute brackets. -/
def outside : Nesting := ⟨0, .none⟩

/-- Read one character. A parenthesis or an attribute bracket that nothing opened cannot be closed,
and neither may stand inside an attribute bracket. -/
def step (nesting : Nesting) (character : Char) : Option Nesting :=
  if nesting.shield.isBare then
    if character = '(' then some ⟨nesting.depth + 1, .none⟩
    else if character = ')' then
      if nesting.depth = 0 then none else some ⟨nesting.depth - 1, .none⟩
    else if character = ']' then none
    else some ⟨nesting.depth, nesting.shield.next character⟩
  else if nesting.shield = ⟨some .bracket, false⟩ ∧ character ∈ ['(', ')', '['] then none
  else some ⟨nesting.depth, nesting.shield.next character⟩

def run (nesting : Nesting) (text : List Char) : Option Nesting :=
  text.foldlM step nesting

end Nesting

/-- Whether strings, attribute brackets and parentheses are closed and properly nested. -/
def isBalanced (text : List Char) : Bool :=
  (Nesting.outside.run text).any fun behind => behind.depth = 0 && behind.shield.guard.isNone

example : isBalanced ":not(.a\\), [b=')'])".toList = true := by decide +kernel
example : isBalanced ".a)".toList = false ∧ isBalanced "[(]".toList = false := by decide +kernel

/-- Whether there is no white space but that of ASCII. -/
def isNarrow (text : List Char) : Bool :=
  text.all fun character => !(isBlank character && isWide character)

/-- The characters that mean something to the reader of parentheses, strings and commas. -/
def Nesting.special : List Char := ['\\', '"', '\'', '[', ']', '(', ')', ',']

/-! ## What stands behind a selector -/

/-- Whether a text begins with the end of a selector: a comma, a closing parenthesis or nothing,
behind white space of ASCII. -/
def endsSelector : List Char → Bool
  | [] => true
  | character :: rest =>
    character = ',' || character = ')' ||
      (isBlank character && !isWide character && endsSelector rest)

section

variable {text tail blanks : List Char} {character : Char}

theorem mem_blanks (blank : isBlank character) (narrow : ¬ isWide character) :
    character ∈ [' ', '\t', '\n', '\x0b', '\x0c', '\r'] := by
  have codes : character = ' ' ∨ 9 ≤ character.toNat ∧ character.toNat ≤ 13 := by
    simpa [isBlank, narrow] using blank
  rcases codes with rfl | bounds
  · decide
  · have ofCode : character = Char.ofNat character.toNat := (Char.ofNat_toNat character).symm
    generalize character.toNat = code at *
    subst ofCode
    have fewCodes : code = 9 ∨ code = 10 ∨ code = 11 ∨ code = 12 ∨ code = 13 := by omega
    rcases fewCodes with rfl | rfl | rfl | rfl | rfl <;> decide

theorem first_of_endsSelector (ends : endsSelector (character :: tail)) :
    Identifier.isCharacter character = false ∧ startsName character = false ∧
      isHexDigit character = false ∧ character ≠ '\\' ∧ character ≠ ':' ∧ character ≠ '(' := by
  have few : character ∈ [',', ')', ' ', '\t', '\n', '\x0b', '\x0c', '\r'] := by
    simp only [endsSelector, Bool.or_eq_true, Bool.and_eq_true, decide_eq_true_eq,
      Bool.not_eq_true'] at ends
    rcases ends with (rfl | rfl) | ⟨⟨blank, narrow⟩, _⟩
    · decide
    · decide
    · exact List.mem_cons_of_mem _
        (List.mem_cons_of_mem _ (mem_blanks blank (Bool.eq_false_iff.mp narrow)))
  simp only [List.mem_cons, List.not_mem_nil, or_false] at few
  rcases few with rfl | rfl | rfl | rfl | rfl | rfl | rfl | rfl <;> decide

theorem head?_append (ends : endsSelector tail) (text : List Char)
    (kind : character = ':' ∨ character = '(') :
    (text ++ tail).head? = some character ↔ text.head? = some character := by
  cases text with
  | cons first rest => rfl
  | nil =>
    refine ⟨fun first => ?_, fun first => nomatch first⟩
    obtain ⟨rest, rfl⟩ := List.head?_eq_some_iff.mp first
    obtain ⟨-, -, -, -, noColon, noGroup⟩ := first_of_endsSelector ends
    exact absurd kind (not_or.mpr ⟨noColon, noGroup⟩)

theorem startsName_append (ends : endsSelector tail) (text : List Char) :
    ((text ++ tail).head?.map startsName).getD false = (text.head?.map startsName).getD false := by
  cases text with
  | cons first rest => rfl
  | nil =>
    cases tail with
    | nil => rfl
    | cons first rest => exact (first_of_endsSelector ends).2.1

theorem not_special {test : Char → Bool} (clear : Nesting.special.all fun other => !test other)
    (holds : test character) : character ∉ Nesting.special := by
  intro member
  have fails := List.all_eq_true.mp clear character member
  simp [holds] at fails

theorem not_special_of_isBlank (blank : isBlank character) : character ∉ Nesting.special :=
  not_special (by decide) blank

theorem not_special_of_starts (starts : (character = '.' || character = '#') &&
    (text.head?.map startsName).getD false) : character ∉ Nesting.special := by
  have mark : character = '.' ∨ character = '#' := by
    simpa using (Bool.and_eq_true_iff.mp starts).1
  rcases mark with rfl | rfl <;> decide

end

end Selector

end ScopedStyles
