import Mathlib.Data.List.Basic
import ScopedStyles.Text.Character

/-!
White space at the ends of texts. Trimming takes off nothing but white space, and it changes a text
only when there is some at an end.
-/

namespace ScopedStyles.Text

variable {text blanks : List Char}

/-- A text does not begin with white space. -/
def StartsVisible (text : List Char) : Prop :=
  ¬ text.head?.any isBlank

def EndsVisible (text : List Char) : Prop :=
  ¬ text.getLast?.any isBlank

theorem startsVisible_cons {first : Char} {rest : List Char} :
    StartsVisible (first :: rest) ↔ ¬ isBlank first := by
  simp [StartsVisible]

theorem startsVisible_reverse : StartsVisible text.reverse ↔ EndsVisible text := by
  rw [StartsVisible, EndsVisible, List.head?_reverse]

theorem startsVisible_of_visible (visible : ∀ character ∈ text, ¬ isBlank character) :
    StartsVisible text := by
  cases text with
  | nil => simp [StartsVisible]
  | cons first rest => exact startsVisible_cons.mpr (visible first List.mem_cons_self)

theorem endsVisible_of_visible (visible : ∀ character ∈ text, ¬ isBlank character) :
    EndsVisible text := by
  apply startsVisible_reverse.mp
  apply startsVisible_of_visible
  simpa using visible

theorem StartsVisible.append (visible : StartsVisible text) (proper : text ≠ [])
    (rest : List Char) : StartsVisible (text ++ rest) := by
  rwa [StartsVisible, List.head?_append_of_ne_nil text proper]

theorem EndsVisible.append (visible : EndsVisible text) (proper : text ≠ [])
    (front : List Char) : EndsVisible (front ++ text) := by
  rwa [EndsVisible, List.getLast?_append_of_ne_nil front proper]

theorem StartsVisible.dropWhile_isBlank (visible : StartsVisible text) :
    text.dropWhile isBlank = text := by
  cases text with
  | nil => rfl
  | cons first rest => exact List.dropWhile_cons_of_neg (startsVisible_cons.mp visible)

theorem startsVisible_dropWhile (text : List Char) : StartsVisible (text.dropWhile isBlank) := by
  have notBlank := List.head?_dropWhile_not isBlank text
  unfold StartsVisible
  cases first : (text.dropWhile isBlank).head? with
  | none => simp
  | some character =>
    rw [first] at notBlank
    simpa using notBlank

/-! ## The end of a text -/

/-- Every text is one that does not end with white space, and white space behind it. -/
theorem exists_trimmedEnd (text : List Char) : ∃ kept trail, text = kept ++ trail ∧
    EndsVisible kept ∧ ∀ character ∈ trail, isBlank character := by
  refine ⟨(text.reverse.dropWhile isBlank).reverse, (text.reverse.takeWhile isBlank).reverse, ?_,
    ?_, fun character member => ?_⟩
  · rw [← List.reverse_append, List.takeWhile_append_dropWhile, List.reverse_reverse]
  · rw [← startsVisible_reverse, List.reverse_reverse]
    exact startsVisible_dropWhile text.reverse
  · exact List.all_eq_true.mp List.all_takeWhile character (List.mem_reverse.mp member)

theorem dropWhile_reverse_append (visible : EndsVisible text)
    (blank : ∀ character ∈ blanks, isBlank character) :
    (text ++ blanks).reverse.dropWhile isBlank = text.reverse := by
  rw [List.reverse_append, List.dropWhile_append_of_pos (by simpa using blank),
    (startsVisible_reverse.mpr visible).dropWhile_isBlank]

/-- There is only one way to cut white space off the end of a text. -/
theorem eq_of_append_blanks {other otherBlanks : List Char} (visible : EndsVisible text)
    (visibleToo : EndsVisible other) (blank : ∀ character ∈ blanks, isBlank character)
    (blankToo : ∀ character ∈ otherBlanks, isBlank character)
    (same : text ++ blanks = other ++ otherBlanks) : text = other := by
  have reversed := dropWhile_reverse_append visible blank
  rw [same, dropWhile_reverse_append visibleToo blankToo] at reversed
  exact List.reverse_injective reversed.symm

/-! ## Trimming -/

/-- A text without white space at its ends is not changed by trimming. -/
theorem trimCharacters_eq_self (front : StartsVisible text) (back : EndsVisible text) :
    trimCharacters text = text := by
  rw [trimCharacters, front.dropWhile_isBlank, (startsVisible_reverse.mpr back).dropWhile_isBlank,
    List.reverse_reverse]

theorem trimCharacters_split (text : List Char) :
    ∃ front back, text = front ++ (trimCharacters text ++ back) ∧
      (∀ character ∈ front, isBlank character) ∧ ∀ character ∈ back, isBlank character := by
  refine ⟨text.takeWhile isBlank, ((text.dropWhile isBlank).reverse.takeWhile isBlank).reverse,
    ?_, fun character member => ?_, fun character member => ?_⟩
  · rw [trimCharacters, ← List.reverse_append, List.takeWhile_append_dropWhile,
      List.reverse_reverse, List.takeWhile_append_dropWhile]
  · exact List.all_eq_true.mp List.all_takeWhile character member
  · exact List.all_eq_true.mp List.all_takeWhile character (List.mem_reverse.mp member)

theorem trimCharacters_append_blanks (blank : ∀ character ∈ blanks, isBlank character) :
    trimCharacters (text ++ blanks) = trimCharacters text := by
  rw [trimCharacters, trimCharacters, List.dropWhile_append]
  split
  · rename_i allBlank
    have nothing : (blanks ++ []).dropWhile isBlank = [] := List.dropWhile_append_of_pos blank
    rw [List.append_nil] at nothing
    rw [nothing, List.isEmpty_iff.mp allBlank]
  · rw [List.reverse_append, List.dropWhile_append_of_pos fun character member =>
      blank character (List.mem_reverse.mp member)]

/-- Trimming a text that begins with visible characters takes off white space at its end. -/
theorem exists_trimCharacters_append {front : List Char} (starts : StartsVisible front)
    (ends : EndsVisible front) (proper : front ≠ []) (rest : List Char) :
    ∃ kept trail, rest = kept ++ trail ∧ (∀ character ∈ trail, isBlank character) ∧
      trimCharacters (front ++ rest) = front ++ kept := by
  rcases exists_trimmedEnd rest with ⟨kept, trail, rfl, visible, blank⟩
  have endsKept : EndsVisible (front ++ kept) := by
    by_cases nothing : kept = []
    · rwa [nothing, List.append_nil]
    · exact visible.append nothing front
  refine ⟨kept, trail, rfl, blank, ?_⟩
  rw [← List.append_assoc, trimCharacters_append_blanks blank,
    trimCharacters_eq_self (starts.append proper kept) endsKept]

theorem trimCharacters_subset (text : List Char) : trimCharacters text ⊆ text := by
  obtain ⟨front, back, whole, -, -⟩ := trimCharacters_split text
  intro character member
  rw [whole]
  exact List.mem_append_right _ (List.mem_append_left _ member)

theorem mem_trimCharacters {character : Char} (member : character ∈ text)
    (noBlank : ¬ isBlank character) : character ∈ trimCharacters text := by
  obtain ⟨front, back, whole, blankFront, blankBack⟩ := trimCharacters_split text
  rw [whole, List.mem_append, List.mem_append] at member
  rcases member with isFront | inside | isBack
  · exact absurd (blankFront character isFront) noBlank
  · exact inside
  · exact absurd (blankBack character isBack) noBlank

end ScopedStyles.Text
