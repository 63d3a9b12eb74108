import ScopedStyles.ScopedName.Template

/-!
Templates as they are written. A template is put together from literal text without opening brackets
and from placeholders with a known subject; read, it falls into the same pieces again, whatever
stands beside a piece. Digits alone behind a subject are read as an encoding if they are digits of
ASCII, and as a length otherwise.
-/

namespace ScopedStyles

open Text

def Subject.word : Subject → List Char
  | .localName => "local".toList
  | .fileName => "name".toList
  | .extension => "ext".toList
  | .folder => "folder".toList
  | .path => "path".toList
  | .hash => "hash".toList
  | .contentHash => "contenthash".toList

namespace Template

/-! ## Pieces -/

/-- A non-empty run of characters that pass a test. -/
abbrev Run (test : Char → Bool) :=
  { word : List Char // word ≠ [] ∧ word.all test }

/-- A placeholder as it is written: a subject, behind it an encoding and a length, either of which
may be missing. -/
structure WrittenPlaceholder where
  subject : Subject
  encoding : Option (Run isEncodingCharacter)
  length : Option (Run isDecimal)

/-- A word behind a colon, if there is one. -/
def behindColon : Option (List Char) → List Char
  | none => []
  | some word => ':' :: word

namespace WrittenPlaceholder

def ending (written : WrittenPlaceholder) : List Char :=
  behindColon (written.encoding.map Subtype.val) ++ behindColon (written.length.map Subtype.val) ++
    [']']

def spelling (written : WrittenPlaceholder) : List Char :=
  '[' :: written.subject.word ++ written.ending

/-- The encoding and the length that are read. -/
def groups (written : WrittenPlaceholder) : Option (List Char) × Option (List Char) :=
  match written.encoding, written.length with
  | none, some digits =>
    if digits.1.all isEncodingCharacter then (some digits.1, none) else (none, some digits.1)
  | encoding, length => (encoding.map Subtype.val, length.map Subtype.val)

def placeholder (written : WrittenPlaceholder) : Placeholder :=
  ⟨written.subject, written.groups.1, written.groups.2, written.spelling⟩

end WrittenPlaceholder

/-- A piece of a template as it is written. -/
inductive Piece where
  | literal (text : List Char) (plain : '[' ∉ text)
  | placeholder (written : WrittenPlaceholder)

namespace Piece

def spelling : Piece → List Char
  | literal text _ => text
  | placeholder written => written.spelling

def parts : Piece → List TemplatePart
  | literal text _ => text.map TemplatePart.text
  | placeholder written => [.placeholder written.placeholder]

end Piece

/-- The text of a template that is put together from pieces. -/
def ofPieces (pieces : List Piece) : List Char :=
  pieces.flatMap Piece.spelling

/-! ## Reading an ending -/

theorem colonRun?_append {test : Char → Bool} (run : Run test) {behind : List Char}
    (stops : ∀ first ∈ behind.head?, ¬ test first) :
    colonRun? test (':' :: (run.1 ++ behind)) = some (run.1, behind) := by
  have nonempty := run.2.1
  have passes := List.all_eq_true.mp run.2.2
  have ends : behind.takeWhile test = [] ∧ behind.dropWhile test = behind := by
    cases behind with
    | nil => exact ⟨rfl, rfl⟩
    | cons first rest =>
      have fails := stops first rfl
      exact ⟨List.takeWhile_cons_of_neg fails, List.dropWhile_cons_of_neg fails⟩
  have taken : (run.1 ++ behind).takeWhile test = run.1 := by
    rw [List.takeWhile_append_of_pos passes, ends.1, List.append_nil]
  have dropped : (run.1 ++ behind).dropWhile test = behind := by
    rw [List.dropWhile_append_of_pos passes, ends.2]
  simp [colonRun?, taken, dropped, nonempty]

theorem readLength?_append (digits : Run isDecimal) (rest : List Char) :
    readLength? (':' :: (digits.1 ++ ']' :: rest)) = some (digits.1, rest) := by
  have stops : ∀ first ∈ (']' :: rest).head?, ¬ isDecimal first := by
    rintro first ⟨⟩
    decide
  rw [readLength?, colonRun?_append digits stops]
  rfl

theorem readEncoding?_append (encoding : Run isEncodingCharacter) (rest : List Char) :
    readEncoding? (':' :: (encoding.1 ++ ']' :: rest)) = some (some encoding.1, none, rest) := by
  have stops : ∀ first ∈ (']' :: rest).head?, ¬ isEncodingCharacter first := by
    rintro first ⟨⟩
    decide
  rw [readEncoding?, colonRun?_append encoding stops]
  rfl

theorem readEncoding?_append_length (encoding : Run isEncodingCharacter) (digits : Run isDecimal)
    (rest : List Char) :
    readEncoding? (':' :: (encoding.1 ++ ':' :: (digits.1 ++ ']' :: rest))) =
      some (some encoding.1, some digits.1, rest) := by
  have stops : ∀ first ∈ (':' :: (digits.1 ++ ']' :: rest)).head?, ¬ isEncodingCharacter first := by
    rintro first ⟨⟩
    decide
  rw [readEncoding?, colonRun?_append encoding stops]
  dsimp only
  rw [readLength?_append]

theorem readLength?_of_digit {digit : Char} (decimal : isDecimal digit) (rest : List Char) :
    readLength? (digit :: rest) = none ∧ behindBracket? (digit :: rest) = none := by
  have noColon : digit ≠ ':' := by
    rintro rfl
    exact absurd decimal (by decide)
  have noBracket : digit ≠ ']' := by
    rintro rfl
    exact absurd decimal (by decide)
  constructor
  · unfold readLength? colonRun?
    simp [noColon]
  · unfold behindBracket?
    simp [noBracket]

/-- Decimal digits that are not all of ASCII are not read as an encoding: its run ends before the
first of the others. -/
theorem readEncoding?_of_foreign (digits : Run isDecimal)
    (foreign : ¬ digits.1.all isEncodingCharacter) (rest : List Char) :
    readEncoding? (':' :: (digits.1 ++ rest)) = none := by
  have more : digits.1.dropWhile isEncodingCharacter ≠ [] := by
    intro nothing
    have whole := List.takeWhile_append_dropWhile (p := isEncodingCharacter) (l := digits.1)
    rw [nothing, List.append_nil] at whole
    exact foreign (whole ▸ List.all_takeWhile)
  obtain ⟨digit, back, left⟩ := List.exists_cons_of_ne_nil more
  have fails : ¬ isEncodingCharacter digit := by
    have first := List.head?_dropWhile_not isEncodingCharacter digits.1
    rw [left] at first
    simpa using first
  have whole : digits.1 = digits.1.takeWhile isEncodingCharacter ++ digit :: back := by
    rw [← left, List.takeWhile_append_dropWhile]
  have passes : (digits.1.takeWhile isEncodingCharacter).all isEncodingCharacter :=
    List.all_takeWhile
  have decimal : isDecimal digit := List.all_eq_true.mp digits.2.2 digit (by rw [whole]; simp)
  generalize digits.1.takeWhile isEncodingCharacter = front at whole passes
  rw [whole, List.append_assoc, List.cons_append, readEncoding?]
  by_cases nonempty : front = []
  · subst nonempty
    simp [colonRun?, fails]
  · have stops : ∀ first ∈ (digit :: (back ++ rest)).head?, ¬ isEncodingCharacter first := by
      rintro first ⟨⟩
      exact fails
    obtain ⟨noLength, noBracket⟩ := readLength?_of_digit decimal (back ++ rest)
    rw [colonRun?_append ⟨front, nonempty, passes⟩ stops]
    dsimp only
    rw [noLength, noBracket]
    rfl

theorem readEnding?_ending (written : WrittenPlaceholder) (rest : List Char) :
    readEnding? (written.ending ++ rest) = some (written.groups.1, written.groups.2, rest) := by
  obtain ⟨subject, encoding, length⟩ := written
  cases encoding with
  | none =>
    cases length with
    | none => rfl
    | some digits =>
      have text : WrittenPlaceholder.ending ⟨subject, none, some digits⟩ ++ rest =
          ':' :: (digits.1 ++ ']' :: rest) := by
        simp [WrittenPlaceholder.ending, behindColon]
      rw [text, readEnding?, WrittenPlaceholder.groups]
      by_cases ascii : digits.1.all isEncodingCharacter
      · rw [readEncoding?_append ⟨digits.1, digits.2.1, ascii⟩ rest]
        simp [ascii]
      · rw [readEncoding?_of_foreign digits ascii, readLength?_append]
        simp [ascii]
  | some encoding =>
    cases length with
    | none =>
      have text : WrittenPlaceholder.ending ⟨subject, some encoding, none⟩ ++ rest =
          ':' :: (encoding.1 ++ ']' :: rest) := by
        simp [WrittenPlaceholder.ending, behindColon]
      rw [text, readEnding?, readEncoding?_append]
      rfl
    | some digits =>
      have text : WrittenPlaceholder.ending ⟨subject, some encoding, some digits⟩ ++ rest =
          ':' :: (encoding.1 ++ ':' :: (digits.1 ++ ']' :: rest)) := by
        simp [WrittenPlaceholder.ending, behindColon]
      rw [text, readEnding?, readEncoding?_append_length]
      rfl

/-! ## Reading a template -/

theorem readSubject?_word (subject : Subject) (rest : List Char) :
    readSubject? (subject.word ++ rest) = some (subject.word, subject, rest) := by
  cases subject <;> rfl

theorem readPlaceholder?_spelling (written : WrittenPlaceholder) (rest : List Char) :
    readPlaceholder? (written.subject.word ++ written.ending ++ rest) =
      some (written.placeholder, rest) := by
  have spelling : spelled (written.subject.word ++ written.ending ++ rest) rest =
      written.subject.word ++ written.ending := by
    rw [spelled, List.length_append, Nat.add_sub_cancel, List.take_left]
  rw [readPlaceholder?, List.append_assoc, readSubject?_word]
  dsimp only
  rw [readEnding?_ending, Option.map_some, ← List.append_assoc, spelling]
  rfl

theorem read_placeholder {text rest : List Char} {placeholder : Placeholder}
    (found : readPlaceholder? text = some (placeholder, rest)) :
    read ('[' :: text) = .placeholder placeholder :: read rest := by
  rw [read, if_pos rfl]
  split
  · rename_i other behind same
    cases found.symm.trans same
    rfl
  · rename_i nothing
    cases found.symm.trans nothing

theorem read_literal {text : List Char} (plain : '[' ∉ text) (rest : List Char) :
    read (text ++ rest) = text.map TemplatePart.text ++ read rest := by
  induction text with
  | nil => rfl
  | cons character text induction =>
    have noBracket : character ≠ '[' := by
      rintro rfl
      exact plain List.mem_cons_self
    have plainText : '[' ∉ text := fun member => plain (List.mem_cons_of_mem _ member)
    rw [List.cons_append, read, if_neg noBracket, induction plainText, List.map_cons,
      List.cons_append]

theorem read_spelling (piece : Piece) (rest : List Char) :
    read (piece.spelling ++ rest) = piece.parts ++ read rest := by
  cases piece with
  | literal text plain => exact read_literal plain rest
  | placeholder written => exact read_placeholder (readPlaceholder?_spelling written rest)

theorem read_ofPieces (pieces : List Piece) :
    read (ofPieces pieces) = pieces.flatMap Piece.parts := by
  induction pieces with
  | nil => rw [ofPieces, List.flatMap_nil, read, List.flatMap_nil]
  | cons piece rest induction =>
    rw [ofPieces, List.flatMap_cons, read_spelling, List.flatMap_cons]
    exact congrArg _ induction

end Template

end ScopedStyles
