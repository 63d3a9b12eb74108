import Mathlib.Data.List.Induction
import ScopedStyles.Proofs.Text.Bytes

/-!
Positions told by counting. The position behind a text counts its bytes, its line ends, and the
characters behind the last of these; it is the position that looking up its offset finds, whatever
follows the text. Every other offset is past the end of the text, where its end is found, or inside
a character, where the column counts bytes.
-/

namespace ScopedStyles

namespace Location

/-- The position behind a text that begins at the first one. -/
def behind (text : List Char) : Location :=
  text.foldl after start

theorem behind_concat (text : List Char) (character : Char) :
    behind (text ++ [character]) = (behind text).after character := by
  rw [behind, List.foldl_append, List.foldl_cons, List.foldl_nil, behind]

theorem behind_append_cons (before : List Char) (character : Char) (rest : List Char) :
    behind (before ++ character :: rest) = rest.foldl after ((behind before).after character) := by
  rw [behind, List.foldl_append, List.foldl_cons, behind]

theorem offset_behind (text : List Char) :
    (behind text).offset = (String.ofList text).utf8ByteSize := by
  induction text using List.reverseRecOn with
  | nil => rfl
  | append_singleton text character induction =>
    rw [behind_concat, offset_after, induction]
    simp [String.ofList_append]

theorem length_flatMap_utf8EncodeChar (text : List Char) :
    (text.flatMap String.utf8EncodeChar).length = (behind text).offset := by
  rw [← Text.bytes_ofList, Text.length_bytes, offset_behind]

theorem line_behind (text : List Char) : (behind text).line = text.count '\n' + 1 := by
  induction text using List.reverseRecOn with
  | nil => rfl
  | append_singleton text character induction =>
    rw [behind_concat, after, List.count_append, List.count_singleton]
    by_cases breaks : character = '\n' <;> simp [breaks, induction]

theorem column_behind (text : List Char) :
    (behind text).column = (text.reverse.takeWhile (· ≠ '\n')).length + 1 := by
  induction text using List.reverseRecOn with
  | nil => rfl
  | append_singleton text character induction =>
    rw [behind_concat, after, List.reverse_append, List.reverse_singleton, List.singleton_append]
    by_cases breaks : character = '\n' <;> simp [breaks, induction]

theorem offset_le_foldl_after (location : Location) (text : List Char) :
    location.offset ≤ (text.foldl after location).offset := by
  induction text generalizing location with
  | nil => exact Nat.le_refl _
  | cons character rest induction =>
    exact Nat.le_of_lt (Nat.lt_of_lt_of_le (offset_lt_after location character) (induction _))

/-! ## The last line -/

/-- The text up to its last line end, and with it. -/
def earlierLines (text : List Char) : List Char :=
  (text.reverse.dropWhile (· ≠ '\n')).reverse

/-- The offset at which the last line of a text begins. -/
def lineStart (text : List Char) : Nat :=
  (behind (earlierLines text)).offset

theorem earlierLines_append_lastLine (text : List Char) :
    earlierLines text ++ (text.reverse.takeWhile (· ≠ '\n')).reverse = text := by
  rw [earlierLines, ← List.reverse_append, List.takeWhile_append_dropWhile, List.reverse_reverse]

theorem lineStart_le (text : List Char) : lineStart text ≤ (behind text).offset := by
  have whole := congrArg behind (earlierLines_append_lastLine text)
  rw [← whole, behind, List.foldl_append]
  exact offset_le_foldl_after _ _

theorem lineStart_concat (text : List Char) (character : Char) :
    lineStart (text ++ [character]) =
      if character = '\n' then (behind (text ++ [character])).offset else lineStart text := by
  rw [lineStart, earlierLines, List.reverse_append, List.reverse_singleton, List.singleton_append]
  by_cases breaks : character = '\n' <;> simp [breaks, lineStart, earlierLines]

/-! ## Looking up offsets -/

/-- Where an offset stands in a text: behind whole characters, or inside one. -/
inductive Stands (text : List Char) (offset : Nat) : Prop
  | between (before rest : List Char) (whole : text = before ++ rest)
    (reached : offset = (behind before).offset)
  | inside (before : List Char) (character : Char) (rest : List Char)
    (whole : text = before ++ character :: rest) (beyond : (behind before).offset < offset)
    (short : offset < (behind before).offset + character.utf8Size)

theorem stands_of_le {text : List Char} {offset : Nat} (bounded : offset ≤ (behind text).offset) :
    Stands text offset := by
  induction text using List.reverseRecOn with
  | nil => exact .between [] [] rfl (Nat.le_zero.mp bounded)
  | append_singleton text character induction =>
    by_cases earlier : offset ≤ (behind text).offset
    · cases induction earlier with
      | between before rest whole reached =>
        exact .between before (rest ++ [character]) (by rw [whole, List.append_assoc]) reached
      | inside before other rest whole beyond short =>
        refine .inside before other (rest ++ [character]) ?_ beyond short
        rw [whole, List.append_assoc, List.cons_append]
    · by_cases whole : offset = (behind (text ++ [character])).offset
      · exact .between (text ++ [character]) [] (List.append_nil _).symm whole
      · rw [behind_concat, offset_after] at bounded whole
        exact .inside text character [] rfl (by omega) (by omega)

theorem utf8ByteSize_outside {before rest : List Char} {character : Char} {front back : String}
    (whole : String.ofList (before ++ character :: rest) = front ++ back) :
    front.utf8ByteSize ≤ (behind before).offset ∨
      (behind before).offset + character.utf8Size ≤ front.utf8ByteSize := by
  have characters := congrArg String.toList whole
  rw [String.toList_ofList, String.toList_append] at characters
  have size : front.utf8ByteSize = (behind front.toList).offset := by
    rw [offset_behind, String.ofList_toList]
  rw [size]
  rcases List.append_eq_append_iff.mp characters with ⟨more, longer, same⟩ | ⟨more, shorter, -⟩
  · cases more with
    | nil => exact .inl (Nat.le_of_eq (by rw [longer, List.append_nil]))
    | cons first more =>
      obtain rfl : character = first := (List.cons.inj same).1
      rw [longer, behind_append_cons, ← offset_after]
      exact .inr (offset_le_foldl_after _ more)
  · rw [shorter, behind, behind, List.foldl_append]
    exact .inl (offset_le_foldl_after _ more)

theorem walk_of_le {offset : Nat} {location : Location} (reached : offset ≤ location.offset)
    (lineStart : Nat) (text : List Char) : walk offset location lineStart text = location := by
  cases text with
  | nil => rfl
  | cons character rest => exact if_pos reached

/-- Walking passes the characters that end at the offset or before. -/
theorem walk_append {offset : Nat} (before passed rest : List Char)
    (reached : (behind (before ++ passed)).offset ≤ offset) :
    walk offset (behind before) (lineStart before) (passed ++ rest) =
      walk offset (behind (before ++ passed)) (lineStart (before ++ passed)) rest := by
  induction passed generalizing before with
  | nil => rw [List.append_nil, List.nil_append]
  | cons character passed induction =>
    have whole : before ++ character :: passed = (before ++ [character]) ++ passed := by simp
    have further := offset_le_foldl_after ((behind before).after character) passed
    rw [← behind_append_cons, offset_after] at further
    have proper := character.utf8Size_pos
    rw [whole] at reached further ⊢
    rw [List.cons_append, walk, if_neg (by omega), if_neg (by omega), ← behind_concat]
    dsimp only
    rw [← lineStart_concat]
    exact induction (before ++ [character]) reached

theorem ofOffset_append {offset : Nat} {before : List Char} (rest : List Char)
    (reached : (behind before).offset ≤ offset) :
    ofOffset (String.ofList (before ++ rest)) offset =
      walk offset (behind before) (lineStart before) rest := by
  rw [ofOffset, String.toList_ofList]
  exact walk_append [] before rest reached

/-- Looking up the offset behind a text finds the position behind it. -/
theorem ofOffset_behind (before rest : List Char) :
    ofOffset (String.ofList (before ++ rest)) (behind before).offset = behind before := by
  rw [ofOffset_append rest (Nat.le_refl _), walk_of_le (Nat.le_refl _)]

theorem ofOffset_of_le {text : List Char} {offset : Nat} (past : (behind text).offset ≤ offset) :
    ofOffset (String.ofList text) offset = behind text := by
  have passed := ofOffset_append [] past
  rwa [List.append_nil] at passed

theorem ofOffset_min (text : List Char) (offset : Nat) :
    ofOffset (String.ofList text) (min offset (behind text).offset) =
      ofOffset (String.ofList text) offset := by
  rcases Nat.le_total offset (behind text).offset with within | past
  · rw [Nat.min_eq_left within]
  · rw [Nat.min_eq_right past, ofOffset_of_le past, ofOffset_of_le (Nat.le_refl _)]

theorem ofOffset_inside {offset : Nat} (before : List Char) (character : Char) (rest : List Char)
    (beyond : (behind before).offset < offset)
    (short : offset < (behind before).offset + character.utf8Size) :
    ofOffset (String.ofList (before ++ character :: rest)) offset =
      ⟨offset, (behind before).line, offset - lineStart before + 1⟩ := by
  rw [ofOffset_append _ (Nat.le_of_lt beyond), walk, if_neg (Nat.not_le.mpr beyond), if_pos short]

end Location

end ScopedStyles
