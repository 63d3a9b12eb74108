import ScopedStyles.Proofs.Text.LineTables

/-!
Positions of offsets told by counting. The line counts the line ends among the bytes before the
offset, and the column the characters behind the last of these, or inside a character the bytes.
This is the one position that is looked up, by walking the text as well as in its table of lines.
-/

namespace ScopedStyles

open Text

namespace Location

/-- A position is what counting gives for a byte offset in a text. The offset is that of the end
when it is past the end. The line counts the line ends among the bytes before it. The column counts
the characters between the last of these and the offset when no character is open there, and the
bytes otherwise. -/
structure IsCounted (text : String) (offset : Nat) (location : Location) : Prop where
  offset : location.offset = min offset text.utf8ByteSize
  line : location.line = ((bytes text).take location.offset).count lineEnd + 1
  column : ∀ before rest, text = before ++ rest → before.utf8ByteSize = location.offset →
    location.column = (before.toList.reverse.takeWhile (· ≠ '\n')).length + 1
  columnInside : ¬ String.Pos.Raw.IsValid text ⟨location.offset⟩ →
    location.column =
      (((bytes text).take location.offset).reverse.takeWhile (· ≠ lineEnd)).length + 1

theorem IsCounted.unique {text : String} {offset : Nat} {location other : Location}
    (counted : IsCounted text offset location) (countedToo : IsCounted text offset other) :
    location = other := by
  have offsets : location.offset = other.offset := counted.offset.trans countedToo.offset.symm
  have lines : location.line = other.line := by rw [counted.line, countedToo.line, offsets]
  have columns : location.column = other.column := by
    by_cases valid : String.Pos.Raw.IsValid text ⟨location.offset⟩
    · obtain ⟨before, rest, whole, reached⟩ := String.Pos.Raw.isValid_iff_exists_append.mp valid
      have size : before.utf8ByteSize = location.offset :=
        (congrArg String.Pos.Raw.byteIdx reached).symm
      rw [counted.column before rest whole size,
        countedToo.column before rest whole (size.trans offsets)]
    · rw [counted.columnInside valid, countedToo.columnInside (offsets ▸ valid), offsets]
  obtain ⟨offset, line, column⟩ := location
  obtain rfl : offset = other.offset := offsets
  obtain rfl : line = other.line := lines
  obtain rfl : column = other.column := columns
  rfl

/-! ## Counting bytes -/

theorem count_lineEnd (text : List Char) :
    (text.flatMap String.utf8EncodeChar).count lineEnd = text.count '\n' := by
  induction text with
  | nil => rfl
  | cons character rest induction =>
    rw [List.flatMap_cons, List.count_append, induction, List.count_cons]
    by_cases breaks : character = '\n'
    · subst breaks
      rw [if_pos (by decide), Nat.add_comm]
      rfl
    · rw [if_neg (by simpa using breaks),
        List.count_eq_zero_of_not_mem (mt lineEnd_mem_utf8EncodeChar.mp breaks), Nat.zero_add,
        Nat.add_zero]

theorem length_takeWhile_reverse_append {part : List UInt8} (single : lineEnd ∉ part)
    (front : List UInt8) :
    ((front ++ part).reverse.takeWhile (· ≠ lineEnd)).length =
      (front.reverse.takeWhile (· ≠ lineEnd)).length + part.length := by
  have passed : ∀ byte ∈ part.reverse, decide (byte ≠ lineEnd) = true := by
    intro byte member
    simp only [ne_eq, decide_not, Bool.not_eq_true', decide_eq_false_iff_not]
    rintro rfl
    exact single (List.mem_reverse.mp member)
  rw [List.reverse_append, List.takeWhile_append_of_pos passed, List.length_append,
    List.length_reverse, Nat.add_comm]

/-- The bytes of the last line reach from where it begins to the end of the text. -/
theorem length_bytes_lastLine (text : List Char) :
    ((text.flatMap String.utf8EncodeChar).reverse.takeWhile (· ≠ lineEnd)).length =
      (behind text).offset - lineStart text := by
  induction text using List.reverseRecOn with
  | nil => rfl
  | append_singleton text character induction =>
    rw [List.flatMap_append, List.flatMap_singleton, lineStart_concat]
    by_cases breaks : character = '\n'
    · subst breaks
      rw [if_pos rfl, Nat.sub_self, List.reverse_append]
      rfl
    · have begun := lineStart_le text
      rw [if_neg breaks, length_takeWhile_reverse_append (mt lineEnd_mem_utf8EncodeChar.mp breaks),
        induction, String.length_utf8EncodeChar, behind_concat, offset_after]
      omega

/-- Up to an offset inside a character stand the bytes of the text before it, and some of its own,
none of which ends a line. -/
theorem exists_take_bytes_eq {offset : Nat} (before : List Char) (character : Char)
    (rest : List Char) (beyond : (behind before).offset < offset)
    (short : offset < (behind before).offset + character.utf8Size) :
    ∃ part, (bytes (String.ofList (before ++ character :: rest))).take offset =
      before.flatMap String.utf8EncodeChar ++ part ∧ lineEnd ∉ part ∧
        offset = (behind before).offset + part.length := by
  have single : lineEnd ∉ String.utf8EncodeChar character :=
    lineEnd_not_mem_utf8EncodeChar (by omega)
  have size := length_flatMap_utf8EncodeChar before
  have width := String.length_utf8EncodeChar character
  refine ⟨(String.utf8EncodeChar character).take (offset - (behind before).offset), ?_,
    fun member => single (List.mem_of_mem_take member), ?_⟩
  · rw [bytes_ofList, List.flatMap_append, List.flatMap_cons, List.take_append,
      List.take_of_length_le (by omega), List.take_append_of_le_length (by omega), size]
  · rw [List.length_take, width]
    omega

/-! ## Looking up is counting -/

theorem isCounted_behind {before rest : List Char} {offset : Nat}
    (reached : min offset (behind (before ++ rest)).offset = (behind before).offset) :
    IsCounted (String.ofList (before ++ rest)) offset (behind before) where
  offset := by rw [← offset_behind, reached]
  line := by
    rw [bytes_ofList, List.flatMap_append, List.take_left' (length_flatMap_utf8EncodeChar before),
      count_lineEnd, line_behind]
  column front back whole size := by
    have found := ofOffset_behind front.toList back.toList
    rw [String.ofList_append, String.ofList_toList, String.ofList_toList, ← whole, offset_behind,
      String.ofList_toList, size, ofOffset_behind] at found
    rw [found, column_behind]
  columnInside invalid := by
    refine absurd (String.Pos.Raw.isValid_iff_exists_append.mpr
      ⟨String.ofList before, String.ofList rest, String.ofList_append, ?_⟩) invalid
    rw [String.Pos.Raw.ext_iff, String.byteIdx_rawEndPos, offset_behind]

theorem isCounted_inside {before rest : List Char} {character : Char} {offset inside : Nat}
    (reached : min offset (behind (before ++ character :: rest)).offset = inside)
    (beyond : (behind before).offset < inside)
    (short : inside < (behind before).offset + character.utf8Size) :
    IsCounted (String.ofList (before ++ character :: rest)) offset
      ⟨inside, (behind before).line, inside - lineStart before + 1⟩ := by
  obtain ⟨part, taken, single, size⟩ := exists_take_bytes_eq before character rest beyond short
  constructor
  · rw [← offset_behind, reached]
  · rw [taken, List.count_append, count_lineEnd, List.count_eq_zero_of_not_mem single, line_behind]
  · intro front back whole ends
    have outside := utf8ByteSize_outside whole
    dsimp only at ends
    omega
  · intro _
    have begun := lineStart_le before
    rw [taken, length_takeWhile_reverse_append single, length_bytes_lastLine]
    dsimp only
    omega

theorem isCounted_ofOffset (text : String) (offset : Nat) :
    IsCounted text offset (ofOffset text offset) := by
  obtain ⟨text, rfl⟩ : ∃ characters, text = String.ofList characters :=
    ⟨text.toList, String.ofList_toList.symm⟩
  rw [← ofOffset_min]
  cases stands_of_le (Nat.min_le_right offset (behind text).offset) with
  | between before rest whole reached =>
    subst whole
    rw [reached, ofOffset_behind]
    exact isCounted_behind reached
  | inside before character rest whole beyond short =>
    subst whole
    rw [ofOffset_inside before character rest beyond short]
    exact isCounted_inside rfl beyond short

/-- Looking up a byte offset in a text is counting. Walking the text finds the position that
counting gives, and no other is given; the table of the lines of the text always has a position for
the offset, and it is the same one. -/
theorem offsets_are_looked_up_by_counting (text : String) (offset : Nat) :
    (∀ location, location = ofOffset text offset ↔ IsCounted text offset location) ∧
      (LineTable.ofText text).locate? text offset = some (ofOffset text offset) := by
  refine ⟨fun location => ⟨?_, fun counted => ?_⟩, LineTable.locate?_ofText text offset⟩
  · rintro rfl
    exact isCounted_ofOffset text offset
  · exact counted.unique (isCounted_ofOffset text offset)

end Location

end ScopedStyles
