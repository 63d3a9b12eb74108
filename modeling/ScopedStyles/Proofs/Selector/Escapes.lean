import ScopedStyles.Proofs.Selector.Balance

/-!
Escapes at the end of a selector. Inside a longer text an escape is what it is in the selector
alone, except that one at the end takes in white space that stands behind the selector.
-/

namespace ScopedStyles.Selector

open Text

/-! ## Escapes -/

section

variable {text tail : List Char}

theorem terminator_isBlank {character : Char}
    (member : character ∈ text.take (Identifier.terminatorLength text)) : isBlank character := by
  unfold Identifier.terminatorLength at member
  split at member
  · have equal : character = '\r' ∨ character = '\n' := by simpa using member
    rcases equal with rfl | rfl <;> decide
  · split at member
    · rename_i first _ _ white
      have equal : character = first := by simpa using member
      subst equal
      simp only [Bool.or_eq_true, decide_eq_true_eq] at white
      rcases white with (((rfl | rfl) | rfl) | rfl) | rfl <;> decide
    · cases member
  · cases member

/-- What ends a selector still does behind the white space that an escape takes in. -/
theorem endsSelector_drop (ends : endsSelector tail) (count : Nat)
    (blank : ∀ character ∈ tail.take count, isBlank character) :
    endsSelector (tail.drop count) := by
  induction count generalizing tail with
  | zero => exact ends
  | succ count induction =>
    cases tail with
    | nil => rfl
    | cons character rest =>
      have isWhite := blank character List.mem_cons_self
      have behind : endsSelector rest := by
        simp only [endsSelector, Bool.or_eq_true, Bool.and_eq_true, decide_eq_true_eq] at ends
        rcases ends with (rfl | rfl) | ⟨_, behind⟩
        · exact absurd isWhite (by decide)
        · exact absurd isWhite (by decide)
        · exact behind
      exact induction behind fun other member => blank other (List.mem_cons_of_mem _ member)

theorem terminatorLength_cons (first : Char) (rest : List Char) :
    Identifier.terminatorLength (first :: rest) =
      if first = '\r' ∧ rest.head? = some '\n' then 2 else Identifier.terminatorLength [first] := by
  split
  · rename_i lineBreak
    obtain ⟨more, rfl⟩ := List.head?_eq_some_iff.mp lineBreak.2
    rw [lineBreak.1]
    rfl
  · rename_i noLineBreak
    have alone : ∀ more, first = '\r' → rest ≠ '\n' :: more := fun more isReturn equal =>
      noLineBreak ⟨isReturn, by rw [equal]; rfl⟩
    simp [Identifier.terminatorLength.eq_2 _ _ alone, Identifier.terminatorLength.eq_2 first []]

/-- The white space that ends an escape inside a longer text: either that of the text alone, or the
text ends in it and it goes on behind the text. -/
theorem terminatorLength_append (text tail : List Char) :
    Identifier.terminatorLength (text ++ tail) = Identifier.terminatorLength text ∨
      Identifier.terminatorLength text = text.length ∧
        text.length ≤ Identifier.terminatorLength (text ++ tail) := by
  match text with
  | [] => exact .inr ⟨rfl, Nat.zero_le _⟩
  | [character] =>
    rw [List.singleton_append, terminatorLength_cons]
    split
    · rename_i lineBreak
      rw [lineBreak.1]
      exact .inr ⟨rfl, Nat.le_succ 1⟩
    · exact .inl rfl
  | first :: second :: rest =>
    refine .inl ?_
    rw [List.cons_append, List.cons_append, terminatorLength_cons,
      terminatorLength_cons first (second :: rest)]
    rfl

theorem takeWhile_take_append {test : Char → Bool}
    (stops : ∀ character, tail.head? = some character → test character = false) (count : Nat) :
    ((text ++ tail).take count).takeWhile test = (text.take count).takeWhile test := by
  induction text generalizing count with
  | nil =>
    cases count with
    | zero => rfl
    | succ count =>
      cases tail with
      | nil => rfl
      | cons first rest => simp [stops first rfl]
  | cons first text induction =>
    cases count with
    | zero => rfl
    | succ count =>
      simp only [List.cons_append, List.take_succ_cons, List.takeWhile_cons, induction]

theorem hexDigits_append (ends : endsSelector tail) :
    Identifier.hexDigits (text ++ tail) = Identifier.hexDigits text := by
  refine takeWhile_take_append (fun character first => ?_) 6
  obtain ⟨rest, rfl⟩ := List.head?_eq_some_iff.mp first
  exact (first_of_endsSelector ends).2.2.1

/-- The length of an escape: that of its digits and of the white space that ends it. -/
def hexLength (text : List Char) : Nat :=
  (Identifier.hexDigits text).length +
    Identifier.terminatorLength (text.drop (Identifier.hexDigits text).length)

theorem readEscape_of_hexDigits (hex : Identifier.hexDigits text ≠ []) :
    Identifier.readEscape text =
      ⟨text.take (hexLength text), Identifier.decodeHex (Identifier.hexDigits text),
        text.drop (hexLength text)⟩ := by
  simp [Identifier.readEscape, hexLength, hex]

theorem readEscape_cons {character : Char} (noHex : Identifier.hexDigits (character :: text) = []) :
    Identifier.readEscape (character :: text) = ⟨[character], character, text⟩ := by
  simp [Identifier.readEscape, noHex]

theorem length_hexDigits_le (text : List Char) : (Identifier.hexDigits text).length ≤ text.length :=
  Nat.le_trans (List.takeWhile_prefix _).length_le (List.length_take_le' _ _)

/-- An escape inside a longer text is as long as in the text alone, or the text ends in it. -/
theorem hexLength_append (ends : endsSelector tail) :
    hexLength (text ++ tail) = hexLength text ∨
      hexLength text = text.length ∧ text.length ≤ hexLength (text ++ tail) := by
  have within := length_hexDigits_le text
  have longer := terminatorLength_append (text.drop (Identifier.hexDigits text).length) tail
  rw [List.length_drop] at longer
  rw [hexLength, hexLength, hexDigits_append ends, List.drop_append_of_le_length within]
  omega

theorem isBlank_of_mem_take {character : Char} (ends : endsSelector tail)
    (member : character ∈ tail.take (hexLength (text ++ tail) - text.length)) :
    isBlank character := by
  have within := length_hexDigits_le text
  rw [hexLength, hexDigits_append ends, List.drop_append_of_le_length within] at member
  generalize (Identifier.hexDigits text).length = count at *
  have white := @terminator_isBlank (text.drop count ++ tail) character
  generalize Identifier.terminatorLength (text.drop count ++ tail) = long at *
  have beyond : count + long - text.length = long - (text.length - count) := by omega
  rw [List.take_append, List.length_drop] at white
  exact white (List.mem_append_right _ (beyond ▸ member))

/-- What an escape takes in behind a selector: white space, and only when the selector ends in the
escape. -/
structure Swallows (tail swallowed more : List Char) : Prop where
  whole : tail = swallowed ++ more
  blank : ∀ character ∈ swallowed, isBlank character
  ends : endsSelector more

theorem Swallows.nothing (ends : endsSelector tail) : Swallows tail [] tail :=
  ⟨rfl, fun _ member => absurd member List.not_mem_nil, ends⟩

theorem Swallows.take (ends : endsSelector tail) (count : Nat)
    (blank : ∀ character ∈ tail.take count, isBlank character) :
    Swallows tail (tail.take count) (tail.drop count) :=
  ⟨(List.take_append_drop count tail).symm, blank, endsSelector_drop ends count blank⟩

/-- An escape in a selector, and the same escape inside a longer text. -/
structure ReadsOn (text tail swallowed more : List Char) : Prop where
  swallows : Swallows tail swallowed more
  spelling : (Identifier.readEscape (text ++ tail)).spelling =
    (Identifier.readEscape text).spelling ++ swallowed
  behind : (Identifier.readEscape (text ++ tail)).rest = (Identifier.readEscape text).rest ++ more
  alone : swallowed = [] ∨ (Identifier.readEscape text).rest = []

theorem exists_readsOn_of_hexDigits (ends : endsSelector tail)
    (isHex : Identifier.hexDigits text ≠ []) :
    ∃ swallowed more, ReadsOn text tail swallowed more := by
  have isHexBehind : Identifier.hexDigits (text ++ tail) ≠ [] := by rwa [hexDigits_append ends]
  have longer := @hexLength_append text tail ends
  have swallows : Swallows tail _ _ := .take ends (hexLength (text ++ tail) - text.length)
    fun _ => isBlank_of_mem_take ends
  have short := readEscape_of_hexDigits isHex
  have long := readEscape_of_hexDigits isHexBehind
  rw [List.take_append, List.drop_append] at long
  generalize hexLength (text ++ tail) = longLength at *
  generalize hexLength text = length at *
  have sameTake : text.take longLength = text.take length := by
    rcases longer with rfl | ⟨ended, within⟩
    · rfl
    · rw [List.take_of_length_le within, List.take_of_length_le (Nat.le_of_eq ended.symm)]
  have sameDrop : text.drop longLength = text.drop length := by
    rcases longer with rfl | ⟨ended, within⟩
    · rfl
    · rw [List.drop_of_length_le within, List.drop_of_length_le (Nat.le_of_eq ended.symm)]
  refine ⟨_, _, swallows, ?_, ?_, ?_⟩
  · rw [long, short, sameTake]
  · rw [long, short, sameDrop]
  · rw [short, ← sameDrop, List.take_eq_nil_iff, List.drop_eq_nil_iff]
    omega

theorem exists_readsOn (ends : endsSelector tail)
    (escaped : text = [] → ∀ character, tail.head? = some character → isBlank character) :
    ∃ swallowed more, ReadsOn text tail swallowed more := by
  by_cases hex : Identifier.hexDigits text = []
  · have noHexBehind := (@hexDigits_append text tail ends).trans hex
    match text, tail with
    | [], [] => exact ⟨[], [], .nothing rfl, rfl, rfl, .inl rfl⟩
    | [], character :: rest =>
      have blank : ∀ other ∈ [character], isBlank other := fun other member =>
        escaped rfl other (by rw [List.mem_singleton.mp member]; rfl)
      rw [List.nil_append] at noHexBehind
      refine ⟨[character], rest, .take ends 1 blank, ?_, ?_, .inr rfl⟩
      · rw [List.nil_append, readEscape_cons noHexBehind]
        rfl
      · rw [List.nil_append, readEscape_cons noHexBehind]
        rfl
    | character :: rest, tail =>
      rw [List.cons_append] at noHexBehind
      refine ⟨[], tail, .nothing ends, ?_, ?_, .inl rfl⟩
      · rw [List.cons_append, readEscape_cons noHexBehind, readEscape_cons hex]
        rfl
      · rw [List.cons_append, readEscape_cons noHexBehind, readEscape_cons hex]
  · exact exists_readsOn_of_hexDigits ends hex

/-- Behind its first character, an escape has digits and white space. -/
theorem spelling_not_special {character : Char}
    (member : character ∈ (Identifier.readEscape text).spelling.drop 1) :
    character ∉ Nesting.special := by
  by_cases hex : Identifier.hexDigits text = []
  · cases text with
    | nil => exact absurd member List.not_mem_nil
    | cons first rest =>
      rw [readEscape_cons hex] at member
      exact absurd member List.not_mem_nil
  · have digits : text.take (Identifier.hexDigits text).length = Identifier.hexDigits text :=
      (List.prefix_iff_eq_take.mp
        ((List.takeWhile_prefix _).trans (List.take_prefix 6 text))).symm
    rw [readEscape_of_hexDigits hex, hexLength, List.take_add, digits] at member
    rcases List.mem_append.mp (List.mem_of_mem_drop member) with digit | white
    · exact not_special (by decide) (List.all_eq_true.mp List.all_takeWhile character digit)
    · exact not_special_of_isBlank (terminator_isBlank white)

theorem spelling_cons (first : Char) (text : List Char) :
    ∃ spelling, (Identifier.readEscape (first :: text)).spelling = first :: spelling := by
  by_cases hex : Identifier.hexDigits (first :: text) = []
  · exact ⟨[], by rw [readEscape_cons hex]⟩
  · obtain ⟨count, positive⟩ :=
      Nat.exists_eq_succ_of_ne_zero (mt List.length_eq_zero_iff.mp hex)
    rw [readEscape_of_hexDigits hex, hexLength, positive, Nat.succ_add]
    exact ⟨_, rfl⟩

end

/-! ## Names -/

theorem spanName_of_endsSelector {tail : List Char} (ends : endsSelector tail) :
    spanName tail = ([], tail) := by
  cases tail with
  | nil => rw [spanName]
  | cons first rest =>
    obtain ⟨noName, -, -, noEscape, -⟩ := first_of_endsSelector ends
    rw [spanName, if_neg noEscape, noName]
    rfl

theorem spanName_backslash (text : List Char) :
    spanName ('\\' :: text) =
      ('\\' :: (Identifier.readEscape text).spelling ++
        (spanName (Identifier.readEscape text).rest).1,
      (spanName (Identifier.readEscape text).rest).2) := by
  rw [spanName, if_pos rfl]
  rfl

end ScopedStyles.Selector
