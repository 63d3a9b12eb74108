import ScopedStyles.Text.LineTable

/-!
The bytes of texts. A byte of ASCII stands for a character by itself, so that line ends are found
among the bytes; and between two offsets there is a part of a text exactly when the text is put
together from it and the parts around it.
-/

namespace ScopedStyles.Text

theorem le_of_mem_utf8EncodeChar {character : Char} {byte : UInt8} (wide : 128 ≤ character.toNat)
    (member : byte ∈ String.utf8EncodeChar character) : 128 ≤ byte.toNat := by
  have high {value : Nat} (bounds : 128 ≤ value ∧ value < 256) :
      128 ≤ (UInt8.ofNat value).toNat := by
    rw [UInt8.toNat_ofNat', Nat.mod_eq_of_lt bounds.2]
    exact bounds.1
  unfold String.utf8EncodeChar at member
  dsimp only at member
  split at member
  · rename_i narrow
    exact absurd (Nat.le_trans wide narrow) (by decide)
  split at member
  · simp only [List.mem_cons, List.not_mem_nil, or_false] at member
    rcases member with rfl | rfl <;> exact high (by omega)
  split at member
  · simp only [List.mem_cons, List.not_mem_nil, or_false] at member
    rcases member with rfl | rfl | rfl <;> exact high (by omega)
  · simp only [List.mem_cons, List.not_mem_nil, or_false] at member
    rcases member with rfl | rfl | rfl | rfl <;> exact high (by omega)

/-- A byte of ASCII is found in the encoding of its own character only. -/
theorem eq_ofNat_of_mem_utf8EncodeChar {character : Char} {byte : UInt8}
    (narrow : byte.toNat < 128) (member : byte ∈ String.utf8EncodeChar character) :
    character = Char.ofNat byte.toNat := by
  by_cases wide : 128 ≤ character.toNat
  · exact absurd (le_of_mem_utf8EncodeChar wide member) (Nat.not_le.mpr narrow)
  · have single : character.val.toNat ≤ 127 := by
      have below : character.toNat < 128 := Nat.not_le.mp wide
      change character.toNat ≤ 127
      omega
    simp only [String.utf8EncodeChar, single, ↓reduceIte, List.mem_singleton] at member
    have code := congrArg UInt8.toNat member
    rw [UInt8.toNat_ofNat', Nat.mod_eq_of_lt (by omega)] at code
    rw [code]
    exact (Char.ofNat_toNat character).symm

theorem lineEnd_mem_utf8EncodeChar {character : Char} :
    lineEnd ∈ String.utf8EncodeChar character ↔ character = '\n' := by
  constructor
  · exact eq_ofNat_of_mem_utf8EncodeChar (by decide)
  · rintro rfl
    decide

/-- A character of several bytes does not end a line, nor does any of its bytes. -/
theorem lineEnd_not_mem_utf8EncodeChar {character : Char} (several : 1 < character.utf8Size) :
    lineEnd ∉ String.utf8EncodeChar character := by
  rw [lineEnd_mem_utf8EncodeChar]
  rintro rfl
  exact absurd several (by decide)

/-! ## Texts -/

theorem bytes_ofList (text : List Char) :
    bytes (String.ofList text) = text.flatMap String.utf8EncodeChar := by
  rw [bytes, String.toUTF8_eq_toByteArray, ← String.utf8Encode_toList, String.toList_ofList,
    List.utf8Encode, List.toList_data_toByteArray]

theorem length_bytes (text : String) : (bytes text).length = text.utf8ByteSize := by
  rw [bytes, String.toUTF8_eq_toByteArray, ← String.size_toByteArray]
  rfl

theorem pos?_eq_some_iff {text : String} {offset : Nat} {position : text.Pos} :
    text.pos? ⟨offset⟩ = some position ↔ position.offset = ⟨offset⟩ := by
  unfold String.pos? String.Slice.pos?
  split
  · rename_i valid
    rw [Option.map_some, Option.some.injEq, String.Pos.ext_iff]
    exact eq_comm
  · rename_i invalid
    refine ⟨nofun, fun same => absurd ?_ invalid⟩
    rw [String.Pos.Raw.isValidForSlice_eq_true_iff, String.Pos.Raw.isValidForSlice_toSlice_iff,
      ← same]
    exact position.isValid

/-- There is a position behind every text that another one begins with. -/
theorem exists_pos?_eq_some {text front rest : String} (whole : text = front ++ rest) :
    ∃ position, text.pos? ⟨front.utf8ByteSize⟩ = some position ∧ position.Splits front rest := by
  have valid : String.Pos.Raw.IsValid text front.rawEndPos :=
    String.Pos.Raw.isValid_iff_exists_append.mpr ⟨front, rest, whole, rfl⟩
  exact ⟨⟨_, valid⟩, pos?_eq_some_iff.mpr rfl, whole, rfl⟩

/-- A text has a part between two offsets when it is put together from that part and what stands
before and behind. -/
theorem part?_eq_some_iff {text part : String} {first last : Nat} :
    part? text first last = some part ↔ ∃ front rest, text = front ++ part ++ rest ∧
      front.utf8ByteSize = first ∧ (front ++ part).utf8ByteSize = last := by
  constructor
  · intro found
    simp only [part?, Option.bind_eq_bind, Option.bind_eq_some_iff, Option.map_eq_some_iff] at found
    obtain ⟨start, atStart, stop, atStop, slice, sliced, copied⟩ := found
    rw [pos?_eq_some_iff] at atStart atStop
    unfold String.slice? at sliced
    split at sliced
    · rename_i ordered
      cases sliced
      obtain ⟨front, rest, before, behind⟩ := String.copy_slice_eq_iff_splits.mp ⟨ordered, copied⟩
      refine ⟨front, rest, behind.eq_append, ?_, ?_⟩
      · rw [← String.byteIdx_rawEndPos, ← before.offset_eq_rawEndPos, atStart]
      · rw [← String.byteIdx_rawEndPos, ← behind.offset_eq_rawEndPos, atStop]
    · cases sliced
  · rintro ⟨front, rest, whole, rfl, rfl⟩
    obtain ⟨start, atStart, before⟩ := exists_pos?_eq_some (whole.trans String.append_assoc)
    obtain ⟨stop, atStop, behind⟩ := exists_pos?_eq_some whole
    obtain ⟨ordered, copied⟩ := String.copy_slice_eq_iff_splits.mpr ⟨front, rest, before, behind⟩
    simp only [part?, Option.bind_eq_bind, Option.bind_eq_some_iff, Option.map_eq_some_iff]
    exact ⟨start, atStart, stop, atStop, _, dif_pos ordered, copied⟩

end ScopedStyles.Text
