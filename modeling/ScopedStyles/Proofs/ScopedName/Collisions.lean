import ScopedStyles.Proofs.Digest.Decoding
import ScopedStyles.Proofs.ScopedName.Validity
import ScopedStyles.Proofs.Text.Bytes

/-!
Names of the standard template. What is hashed for a name can be taken apart again, as no zero byte
stands in a path or a local name; and neither the template nor making a name valid hides a
difference between digests. So names for different origins coincide only where the digests of
different inputs do, as far as they are written.
-/

namespace ScopedStyles

namespace NameOrigin

/-- The texts before the zero bytes have none of their own. -/
structure IsFreeOfNul (origin : NameOrigin) : Prop where
  localName : '\x00' ∉ origin.localName.toList
  path : '\x00' ∉ origin.path.toList

def hashed (salt : String) (origin : NameOrigin) : ByteArray :=
  NameGenerator.hashInput salt origin.localName origin.path origin.content

/-- The five characters of the digest in the names of the standard template. -/
def digestText (salt : String) (origin : NameOrigin) : List Char :=
  Encoding.base64.encodeTo (some 5) (Xxh3.hash (origin.hashed salt))

/-- The bits of the digest that these characters stand for: the first thirty. -/
def leadingBits (salt : String) (origin : NameOrigin) : Nat :=
  (Xxh3.hash (origin.hashed salt)).toNat / 2 ^ 98

def standardName (salt : String) (origin : NameOrigin) : String :=
  NameGenerator.generate ⟨.standard, salt⟩ origin.localName origin.path origin.content

/-! ## What is hashed -/

theorem zero_not_mem_toUTF8 {text : String} (noNul : '\x00' ∉ text.toList) :
    0 ∉ text.toUTF8.data.toList := by
  rw [String.toUTF8_eq_toByteArray, ← String.utf8Encode_toList, List.utf8Encode,
    List.toList_data_toByteArray, List.mem_flatMap]
  rintro ⟨character, member, zero⟩
  rw [Text.eq_ofNat_of_mem_utf8EncodeChar (by decide) zero] at member
  exact noNul member

theorem append_separator_inj {α : Type} {separator : α} {front other back otherBack : List α}
    (absent : separator ∉ front) (absentToo : separator ∉ other)
    (same : front ++ separator :: back = other ++ separator :: otherBack) :
    front = other ∧ back = otherBack := by
  rcases List.append_eq_append_iff.mp same with ⟨more, whole, rest⟩ | ⟨more, whole, rest⟩
  all_goals
    cases more with
    | nil => simp_all
    | cons first more => simp_all

theorem hashed_inj {salt : String} {left right : NameOrigin} (leftFree : left.IsFreeOfNul)
    (rightFree : right.IsFreeOfNul) (same : left.hashed salt = right.hashed salt) :
    left = right := by
  have bytes (origin : NameOrigin) : (origin.hashed salt).data.toList =
      salt.toUTF8.data.toList ++ (origin.path.toUTF8.data.toList ++
        0 :: (origin.localName.toUTF8.data.toList ++ 0 :: origin.content.toUTF8.data.toList)) := by
    simp [hashed, NameGenerator.hashInput]
  have texts {text other : String}
      (sameBytes : text.toUTF8.data.toList = other.toUTF8.data.toList) : text = other :=
    String.toByteArray_inj.mp (ByteArray.ext (Array.toList_inj.mp sameBytes))
  have sameBytes : (left.hashed salt).data.toList = (right.hashed salt).data.toList := by rw [same]
  rw [bytes, bytes] at sameBytes
  obtain ⟨samePath, behind⟩ := append_separator_inj (zero_not_mem_toUTF8 leftFree.path)
    (zero_not_mem_toUTF8 rightFree.path) (List.append_cancel_left sameBytes)
  obtain ⟨sameName, sameContent⟩ := append_separator_inj (zero_not_mem_toUTF8 leftFree.localName)
    (zero_not_mem_toUTF8 rightFree.localName) behind
  obtain ⟨leftName, leftPath, leftContent⟩ := left
  obtain ⟨rightName, rightPath, rightContent⟩ := right
  rw [mk.injEq]
  exact ⟨texts sameName, texts samePath, texts sameContent⟩

/-! ## Digests as text -/

theorem isSafe_character (value : Nat) : Identifier.isSafe (Base64.character value) := by
  have all : ∀ index < 64, Identifier.isSafe (Base64.alphabet.getD index 'A') := by
    decide +kernel
  exact all (value % 64) (Nat.mod_lt value (by decide))

theorem isSafe_of_mem_encode {bytes : List UInt8} {character : Char}
    (member : character ∈ Base64.encode bytes) : Identifier.isSafe character := by
  fun_induction Base64.encode bytes with
  | case1 first second third rest value induction =>
    simp only [List.mem_cons] at member
    rcases member with rfl | rfl | rfl | rfl | member
    iterate 4 exact isSafe_character _
    exact induction member
  | case2 first second value =>
    simp only [List.mem_cons, List.not_mem_nil, or_false] at member
    rcases member with rfl | rfl | rfl <;> exact isSafe_character _
  | case3 first value =>
    simp only [List.mem_cons, List.not_mem_nil, or_false] at member
    rcases member with rfl | rfl <;> exact isSafe_character _
  | case4 => cases member

theorem isSafe_of_mem_digestText {salt : String} {origin : NameOrigin} {character : Char}
    (member : character ∈ origin.digestText salt) : Identifier.isSafe character :=
  isSafe_of_mem_encode (List.mem_of_mem_take member)

theorem character_inj {value other : Nat} :
    Base64.character value = Base64.character other ↔ value % 64 = other % 64 := by
  constructor
  · intro same
    have read := congrArg Base64.value? same
    rw [Base64.value?_character, Base64.value?_character] at read
    exact Option.some.inj read
  · exact Base64.character_congr

theorem encodeTo_five (digest : Digest) :
    Encoding.base64.encodeTo (some 5) digest = [122, 116, 110, 104, 98].map fun place =>
      Base64.character (digest.toNat / 2 ^ place) := by
  have small := digest.toNat_lt
  have bytes : digest.bytes = [120, 112, 104, 96, 88, 80, 72, 64, 56, 48, 40, 32, 24, 16, 8, 0].map
      fun place => UInt8.ofNat (digest.toNat / 2 ^ place) := by
    simp [Digest.bytes, List.range_succ, Nat.shiftRight_eq_div_pow]
  simp only [Encoding.encodeTo, Encoding.encode, bytes, List.map_cons, List.map_nil, Base64.encode,
    List.take_succ_cons, List.take_zero, UInt8.toNat_ofNat', List.cons.injEq, and_true]
  refine ⟨?_, ?_, ?_, ?_, ?_⟩ <;> apply Base64.character_congr <;> omega

theorem digestText_eq_iff {salt : String} {left right : NameOrigin} :
    left.digestText salt = right.digestText salt ↔
      left.leadingBits salt = right.leadingBits salt := by
  unfold digestText leadingBits
  generalize Xxh3.hash (left.hashed salt) = digest, Xxh3.hash (right.hashed salt) = other
  have small := digest.toNat_lt
  have otherSmall := other.toNat_lt
  simp only [encodeTo_five, List.map_cons, List.map_nil, List.cons.injEq, and_true, character_inj]
  omega

theorem length_digestText (salt : String) (origin : NameOrigin) :
    (origin.digestText salt).length = 5 := by
  rw [digestText, Encoding.encodeTo, List.length_take, Encoding.encode, Base64.length_encode,
    Digest.bytes, List.length_map, List.length_range]
  rfl

/-! ## Names of the standard template -/

theorem expand_standard (salt : String) (origin : NameOrigin) :
    NameGenerator.expand "_[local]_[hash:base64:5]" salt origin.localName origin.path
        origin.content =
      '_' :: (origin.localName.toList ++ '_' :: origin.digestText salt) := by
  let localName : Template.WrittenPlaceholder := ⟨.localName, none, none⟩
  let hash : Template.WrittenPlaceholder :=
    ⟨.hash, some ⟨"base64".toList, by decide⟩, some ⟨"5".toList, by decide⟩⟩
  have standsHash : Template.StandsFor salt origin (.placeholder hash) (origin.digestText salt) :=
    @Template.StandsFor.hash salt origin hash (some (origin.digestText salt)) rfl (.encoded rfl)
  have stand : List.Forall₂ (Template.StandsFor salt origin)
      [.literal "_".toList (by decide), .placeholder localName, .literal "_".toList (by decide),
        .placeholder hash]
      ["_".toList, origin.localName.toList, "_".toList, origin.digestText salt] :=
    .cons (.literal _) <| .cons (.localName rfl) <| .cons (.literal _) <| .cons standsHash .nil
  have expands := Template.expand_ofPieces stand
  have template : String.ofList (Template.ofPieces [.literal "_".toList (by decide),
      .placeholder localName, .literal "_".toList (by decide), .placeholder hash]) =
      "_[local]_[hash:base64:5]" := by decide
  rw [template] at expands
  rw [expands]
  simp

theorem standardName_eq (salt : String) (origin : NameOrigin) :
    origin.standardName salt = String.ofList
      ('_' :: (origin.localName.toList.map Identifier.safe ++ '_' :: origin.digestText salt)) := by
  have digest : (origin.digestText salt).map Identifier.safe = origin.digestText salt :=
    Identifier.map_safe_eq_self fun _ => isSafe_of_mem_digestText
  have underscore : Identifier.safe '_' = '_' := by decide
  have noLead (rest : List Char) : Identifier.needsLead ('_' :: rest) = false := rfl
  rw [standardName, NameGenerator.generate, NamePattern.standard]
  dsimp only
  rw [expand_standard, Identifier.sanitize_eq, List.map_cons, List.map_append, List.map_cons,
    digest, underscore, noLead, if_neg Bool.false_ne_true]

/-- Names of the standard template coincide only where digests do. The bytes that are hashed are
different for different origins, whatever the salt is. Two names that are the same have local names
that are the same once they are made valid, and the same five characters of their digests; so for
different origins two different inputs have digests that begin alike: five characters are equal
exactly when the first thirty bits are. -/
theorem standard_names_collide_with_digests (salt : String) (left right : NameOrigin)
    (leftFree : left.IsFreeOfNul) (rightFree : right.IsFreeOfNul) :
    (left.hashed salt = right.hashed salt → left = right) ∧
      (left.standardName salt = right.standardName salt →
        sanitizeIdentifier left.localName = sanitizeIdentifier right.localName ∧
          left.digestText salt = right.digestText salt) ∧
      (left ≠ right → left.standardName salt = right.standardName salt →
        left.hashed salt ≠ right.hashed salt ∧ left.digestText salt = right.digestText salt) ∧
      (left.digestText salt).length = 5 ∧ (right.digestText salt).length = 5 ∧
      (left.digestText salt = right.digestText salt ↔
        left.leadingBits salt = right.leadingBits salt) := by
  have inputs := @hashed_inj salt left right leftFree rightFree
  have names (same : left.standardName salt = right.standardName salt) :
      sanitizeIdentifier left.localName = sanitizeIdentifier right.localName ∧
        left.digestText salt = right.digestText salt := by
    rw [standardName_eq, standardName_eq, String.ofList_inj] at same
    have sameLength : (left.digestText salt).length = (right.digestText salt).length := by
      rw [length_digestText, length_digestText]
    obtain ⟨sameSafe, sameDigest⟩ :=
      List.append_inj' (List.cons.inj same).2 (congrArg Nat.succ sameLength)
    refine ⟨?_, (List.cons.inj sameDigest).2⟩
    rw [sanitizeIdentifier, sanitizeIdentifier, Identifier.sanitize_eq, Identifier.sanitize_eq,
      sameSafe]
  exact ⟨inputs, names, fun different same => ⟨mt inputs different, (names same).2⟩,
    length_digestText salt left, length_digestText salt right, digestText_eq_iff⟩

/-- Two contents of one file with one name for its class: their digests differ, but not in the five
characters that are written. -/
theorem standard_names_of_two_contents :
    let left : NameOrigin := ⟨"a", "a.css", ".a\x7btop:6288px\x7d"⟩
    let right : NameOrigin := ⟨"a", "a.css", ".a\x7btop:29100px\x7d"⟩
    left.IsFreeOfNul ∧ right.IsFreeOfNul ∧ left ≠ right ∧
      left.standardName "" = right.standardName "" ∧
      left.hashed "" ≠ right.hashed "" ∧ left.digestText "" = right.digestText "" ∧
      (left.digestText "").length = 5 ∧ left.leadingBits "" = right.leadingBits "" ∧
      Xxh3.hash (left.hashed "") ≠ Xxh3.hash (right.hashed "") := by
  intro left right
  have leftFree : left.IsFreeOfNul := ⟨by decide, by decide⟩
  have rightFree : right.IsFreeOfNul := ⟨by decide, by decide⟩
  have different : left ≠ right := by decide
  have sameText : left.digestText "" = right.digestText "" := by decide +kernel
  have sameName : left.standardName "" = right.standardName "" := by
    rw [standardName_eq, standardName_eq, sameText]
  obtain ⟨-, -, collide, five, -, bits⟩ :=
    standard_names_collide_with_digests "" left right leftFree rightFree
  obtain ⟨differentInputs, _⟩ := collide different sameName
  exact ⟨leftFree, rightFree, different, sameName, differentInputs, sameText, five,
    bits.mp sameText, by decide +kernel⟩

end NameOrigin

end ScopedStyles
