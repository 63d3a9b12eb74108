import Mathlib.Algebra.Ring.Nat
import ScopedStyles.Digest.Encoding
import ScopedStyles.Proofs.Identifier.Spelling

/-!
Reading back what has been written of a digest. Base 64 and the numerals in base 16 and base 36 have
readers that know nothing of the writers; each reader takes what its writer produces, and so no two
digests have the same whole text.
-/

namespace ScopedStyles

namespace Base64

/-- The six bits that a character stands for. -/
def value? (character : Char) : Option Nat :=
  if character.isUpper then some (character.toNat - 65)
  else if character.isLower then some (character.toNat - 71)
  else if character.isDigit then some (character.toNat + 4)
  else if character = '-' then some 62
  else if character = '_' then some 63
  else none

/-- The bytes in groups of six bits. Two groups at the end hold one byte and three hold two; the
bits left over are zero, and a single group holds nothing. -/
def bytes? : List Nat → Option (List UInt8)
  | first :: second :: third :: fourth :: rest =>
    let value := first * 262144 + second * 4096 + third * 64 + fourth
    (bytes? rest).map fun behind =>
      .ofNat (value / 65536) :: .ofNat (value / 256) :: .ofNat value :: behind
  | [first, second, third] =>
    let value := first * 4096 + second * 64 + third
    if value % 4 = 0 then some [.ofNat (value / 1024), .ofNat (value / 4)] else none
  | [first, second] =>
    let value := first * 64 + second
    if value % 16 = 0 then some [.ofNat (value / 16)] else none
  | [_] => none
  | [] => some []

/-- Read bytes in base 64, with the alphabet for addresses and without padding. -/
def decode? (text : List Char) : Option (List UInt8) :=
  (text.mapM value?).bind bytes?

example : decode? "TWFu_w".toList = some [77, 97, 110, 255] := by decide
example : decode? "TWFu_x".toList = none ∧ decode? "T".toList = none := by decide

theorem length_encode (bytes : List UInt8) :
    (encode bytes).length = (4 * bytes.length + 2) / 3 := by
  fun_induction encode bytes with
  | case1 first second third rest value induction =>
    simp only [List.length_cons, induction]
    omega
  | case2 | case3 | case4 => simp

theorem value?_character (value : Nat) : value? (character value) = some (value % 64) := by
  have all : ∀ index < 64, value? (alphabet.getD index 'A') = some index := by decide +kernel
  exact all (value % 64) (Nat.mod_lt value (by decide))

theorem narrow_of_value? {character : Char} {value : Nat} (found : value? character = some value) :
    character.toNat < 128 := by
  have narrow (isLetter : character.isAlpha) : character.toNat < 128 :=
    Identifier.narrow_of_isAlphanum (Bool.or_eq_true_iff.mpr (.inl isLetter))
  unfold value? at found
  split at found
  · rename_i isUpper
    exact narrow (Bool.or_eq_true_iff.mpr (.inl isUpper))
  split at found
  · rename_i isLower
    exact narrow (Bool.or_eq_true_iff.mpr (.inr isLower))
  split at found
  · rename_i isDigit
    exact Identifier.narrow_of_isDigit isDigit
  split at found
  · rename_i isDash
    exact isDash ▸ by decide
  split at found
  · rename_i isLow
    exact isLow ▸ by decide
  · cases found

theorem character_of_value? {character : Char} {value : Nat}
    (found : value? character = some value) : value < 64 ∧ Base64.character value = character := by
  have all : ∀ code < 128, (value? (Char.ofNat code)).all fun value =>
      value < 64 ∧ Base64.character value = Char.ofNat code := by decide +kernel
  have holds := all character.toNat (narrow_of_value? found)
  rw [Char.ofNat_toNat, found] at holds
  simpa using holds

theorem ofNat_eq_of_mod {value : Nat} {byte : UInt8} (same : value % 256 = byte.toNat) :
    UInt8.ofNat value = byte :=
  UInt8.toNat_inj.mp (by rw [UInt8.toNat_ofNat', same])

theorem mapM_value?_character (values : List Nat) :
    (values.map character).mapM value? = some (values.map (· % 64)) := by
  induction values with
  | nil => rfl
  | cons value rest induction =>
    rw [List.map_cons, List.mapM_cons, value?_character, induction]
    rfl

theorem decode?_encode (bytes : List UInt8) : decode? (encode bytes) = some bytes := by
  unfold decode?
  fun_induction encode bytes with
  | case1 first second third rest value induction =>
    obtain ⟨values, read, whole⟩ := Option.bind_eq_some_iff.mp induction
    simp only [List.mapM_cons, value?_character, read, Option.bind_eq_bind, Option.bind_some,
      Option.pure_def, bytes?, whole, Option.map_some, Option.some.injEq, List.cons.injEq, and_true]
    have firstBound := first.toNat_lt
    have secondBound := second.toNat_lt
    have thirdBound := third.toNat_lt
    refine ⟨ofNat_eq_of_mod ?_, ofNat_eq_of_mod ?_, ofNat_eq_of_mod ?_⟩ <;> omega
  | case2 first second value =>
    have firstBound := first.toNat_lt
    have secondBound := second.toNat_lt
    have read := mapM_value?_character [value / 262144, value / 4096, value / 64]
    simp only [List.map_cons, List.map_nil] at read
    rw [read, Option.bind_some, bytes?, if_pos (by omega)]
    simp only [Option.some.injEq, List.cons.injEq, and_true]
    refine ⟨ofNat_eq_of_mod ?_, ofNat_eq_of_mod ?_⟩ <;> omega
  | case3 first value =>
    have firstBound := first.toNat_lt
    have read := mapM_value?_character [value / 262144, value / 4096]
    simp only [List.map_cons, List.map_nil] at read
    rw [read, Option.bind_some, bytes?, if_pos (by omega)]
    simp only [Option.some.injEq, List.cons.injEq, and_true]
    apply ofNat_eq_of_mod
    omega
  | case4 => rfl

theorem character_congr {value other : Nat} (same : value % 64 = other % 64) :
    character value = character other := by
  rw [character, character, same]

theorem encode_of_bytes? {values : List Nat} {bytes : List UInt8}
    (small : ∀ value ∈ values, value < 64) (whole : bytes? values = some bytes) :
    encode bytes = values.map character := by
  fun_induction bytes? values generalizing bytes with
  | case1 first second third fourth rest value =>
    rename_i induction
    obtain ⟨behind, read, rfl⟩ := Option.map_eq_some_iff.mp whole
    simp only [List.forall_mem_cons] at small
    obtain ⟨_, _, _, _, restSmall⟩ := small
    simp only [encode, induction restSmall read, List.map_cons, UInt8.toNat_ofNat',
      List.cons.injEq, and_true]
    refine ⟨character_congr ?_, character_congr ?_, character_congr ?_, character_congr ?_⟩ <;>
      omega
  | case2 first second third value =>
    cases whole
    simp only [List.forall_mem_cons] at small
    simp only [encode, List.map_cons, UInt8.toNat_ofNat', List.cons.injEq]
    refine ⟨character_congr ?_, character_congr ?_, character_congr ?_, rfl⟩ <;> omega
  | case4 first second value =>
    cases whole
    simp only [List.forall_mem_cons] at small
    simp only [encode, List.map_cons, UInt8.toNat_ofNat', List.cons.injEq]
    refine ⟨character_congr ?_, character_congr ?_, rfl⟩ <;> omega
  | case3 | case5 | case6 => cases whole
  | case7 =>
    cases whole
    rfl

theorem map_character_of_mapM {text : List Char} {values : List Nat}
    (read : text.mapM value? = some values) :
    (∀ value ∈ values, value < 64) ∧ values.map character = text := by
  induction text generalizing values with
  | nil =>
    cases read
    exact ⟨nofun, rfl⟩
  | cons first rest induction =>
    rw [List.mapM_cons] at read
    obtain ⟨value, found, behind⟩ := Option.bind_eq_some_iff.mp read
    obtain ⟨others, readRest, whole⟩ := Option.bind_eq_some_iff.mp behind
    cases whole
    obtain ⟨small, spelled⟩ := character_of_value? found
    obtain ⟨restSmall, restSpelled⟩ := induction readRest
    refine ⟨List.forall_mem_cons.mpr ⟨small, restSmall⟩, ?_⟩
    rw [List.map_cons, spelled, restSpelled]

/-- A text is read as the bytes that it is written for, and only as these. -/
theorem decode?_eq_some_iff {text : List Char} {bytes : List UInt8} :
    decode? text = some bytes ↔ encode bytes = text := by
  constructor
  · intro read
    obtain ⟨values, characters, groups⟩ := Option.bind_eq_some_iff.mp read
    obtain ⟨small, spelled⟩ := map_character_of_mapM characters
    rw [encode_of_bytes? small groups, spelled]
  · rintro rfl
    exact decode?_encode bytes

end Base64

namespace Numeral

/-! ## Digits -/

/-- The value of a digit in a base, letters counting on behind nine. -/
def digitValue? (base : Nat) (character : Char) : Option Nat :=
  let value? :=
    if character.isDigit then some (character.toNat - 48)
    else if character.isLower then some (character.toNat - 87)
    else none
  value?.filter (· < base)

/-- Read on in a base, behind digits that have this value. -/
def readFrom? (base value : Nat) : List Char → Option Nat
  | [] => some value
  | character :: rest =>
    (digitValue? base character).bind fun digit => readFrom? base (value * base + digit) rest

/-- Read a number in a base, most significant digit first. -/
def read? (base : Nat) (text : List Char) : Option Nat :=
  if text.isEmpty then none else readFrom? base 0 text

example : read? 36 "zz".toList = some 1295 ∧ read? 16 "0g".toList = none := by decide

theorem digitValue?_digit {base value : Nat} (bounded : base ≤ 36) (small : value < base) :
    digitValue? base (digit value) = some value := by
  have all : ∀ value < 36, digitValue? 36 (digit value) = some value := by decide +kernel
  have widest := all value (Nat.lt_of_lt_of_le small bounded)
  unfold digitValue? at *
  obtain ⟨found, _⟩ := Option.filter_eq_some_iff.mp widest
  exact Option.filter_eq_some_iff.mpr ⟨found, by simpa using small⟩

theorem readFrom?_append (base value : Nat) (front behind : List Char) :
    readFrom? base value (front ++ behind) =
      (readFrom? base value front).bind (readFrom? base · behind) := by
  induction front generalizing value with
  | nil => rfl
  | cons character rest induction =>
    simp only [List.cons_append, readFrom?, induction, Option.bind_assoc]

theorem readFrom?_digits {base : Nat} (proper : 1 < base) (bounded : base ≤ 36) (value : Nat)
    (behind : List Char) :
    readFrom? base 0 (digits base value behind) = readFrom? base value behind := by
  fun_induction digits base value behind with
  | case1 value behind more induction =>
    have small : value % base < base := Nat.mod_lt value (Nat.lt_trans Nat.zero_lt_one proper)
    rw [induction, readFrom?, digitValue?_digit bounded small, Option.bind_some,
      Nat.div_add_mod']
  | case2 value behind less =>
    obtain rfl : value = 0 := by omega
    rfl

theorem readFrom?_hex (length value : Nat) :
    readFrom? 16 0 (hex length value) = some (value % 16 ^ length) := by
  induction length generalizing value with
  | zero => simp [hex, readFrom?, Nat.mod_one]
  | succ length induction =>
    have small : value % 16 < 16 := Nat.mod_lt value (by decide)
    rw [hex, readFrom?_append, induction, Option.bind_some, readFrom?,
      digitValue?_digit (by decide) small, Option.bind_some, readFrom?, Nat.pow_succ',
      Nat.mod_mul]
    congr 1
    omega

theorem head?_digits {base value : Nat} (proper : 1 < base) (positive : 0 < value)
    (behind : List Char) :
    ∃ first < base, 0 < first ∧ (digits base value behind).head? = some (digit first) := by
  fun_induction digits base value behind with
  | case1 value behind more induction =>
    by_cases single : value < base
    · refine ⟨value, single, positive, ?_⟩
      rw [Nat.div_eq_of_lt single, Nat.mod_eq_of_lt single, digits, if_neg (by simp)]
      rfl
    · exact induction (Nat.div_pos (Nat.not_lt.mp single) (Nat.lt_trans Nat.zero_lt_one proper))
  | case2 value behind less => omega

theorem digit_ne_zero {value : Nat} (positive : 0 < value) (small : value < 36) :
    digit value ≠ '0' := by
  have all : ∀ value < 36, 0 < value → digit value ≠ '0' := by decide
  exact all value small positive

theorem head?_base36_eq_zero_iff {value : Nat} :
    (base36 value).head? = some '0' ↔ value = 0 := by
  constructor
  · refine fun leads => Decidable.byContradiction fun notZero => ?_
    obtain ⟨first, small, positive, begins⟩ :=
      head?_digits (by decide : 1 < 36) (Nat.pos_of_ne_zero notZero) []
    rw [base36, if_neg notZero, begins] at leads
    exact digit_ne_zero positive small (Option.some.inj leads)
  · rintro rfl
    rfl

theorem read?_base36 (value : Nat) : read? 36 (base36 value) = some value := by
  unfold base36
  split
  · rename_i isZero
    rw [isZero]
    decide
  · rename_i notZero
    obtain ⟨first, _, _, begins⟩ :=
      head?_digits (by decide : 1 < 36) (Nat.pos_of_ne_zero notZero) []
    have nonempty : ¬ (digits 36 value []).isEmpty := by
      intro empty
      rw [List.isEmpty_iff.mp empty] at begins
      cases begins
    rw [read?, if_neg nonempty, readFrom?_digits (by decide) (by decide), readFrom?]

end Numeral

/-! ## Digests -/

namespace Digest

theorem toNat_lt (digest : Digest) : digest.toNat < 2 ^ 128 := by
  have high := digest.high.toNat_lt
  have low := digest.low.toNat_lt
  rw [toNat, Nat.shiftLeft_eq]
  omega

theorem toNat_inj {digest other : Digest} (same : digest.toNat = other.toNat) : digest = other := by
  obtain ⟨high, low⟩ := digest
  obtain ⟨otherHigh, otherLow⟩ := other
  have small := low.toNat_lt
  have otherSmall := otherLow.toNat_lt
  simp only [toNat, Nat.shiftLeft_eq] at same
  rw [mk.injEq, ← UInt64.toNat_inj, ← UInt64.toNat_inj]
  omega

theorem testBit_toNat (digest : Digest) {index : Nat} (inside : index < 128) :
    digest.toNat.testBit index =
      ((digest.bytes[15 - index / 8]?.getD 0).toNat.testBit (index % 8)) := by
  have listed : 15 - index / 8 < 16 := by omega
  have shift : 8 * (15 - (15 - index / 8)) + index % 8 = index := by omega
  rw [bytes, List.getElem?_map, List.getElem?_range listed, Option.map_some, Option.getD_some,
    UInt8.toNat_ofNat', Nat.testBit_mod_two_pow, Nat.testBit_shiftRight, shift]
  simp [Nat.mod_lt]

theorem bytes_inj {digest other : Digest} (same : digest.bytes = other.bytes) : digest = other := by
  apply toNat_inj
  apply Nat.eq_of_testBit_eq
  intro index
  by_cases inside : index < 128
  · rw [testBit_toNat digest inside, testBit_toNat other inside, same]
  · have beyond : 2 ^ 128 ≤ 2 ^ index := Nat.pow_le_pow_right (by decide) (Nat.not_lt.mp inside)
    rw [Nat.testBit_lt_two_pow (Nat.lt_of_lt_of_le digest.toNat_lt beyond),
      Nat.testBit_lt_two_pow (Nat.lt_of_lt_of_le other.toNat_lt beyond)]

end Digest

namespace Encoding

theorem encode_injective (encoding : Encoding) : Function.Injective encoding.encode := by
  intro digest other same
  cases encoding with
  | hex =>
    have read := congrArg (Numeral.readFrom? 16 0) same
    simp only [encode, Numeral.readFrom?_hex, Option.some.injEq] at read
    have places : 16 ^ 32 = 2 ^ 128 := by decide
    rw [places, Nat.mod_eq_of_lt digest.toNat_lt, Nat.mod_eq_of_lt other.toNat_lt] at read
    exact Digest.toNat_inj read
  | base64 =>
    have read := congrArg Base64.decode? same
    simp only [encode, Base64.decode?_encode, Option.some.injEq] at read
    exact Digest.bytes_inj read
  | base36 =>
    have read := congrArg (Numeral.read? 36) same
    simp only [encode, Numeral.read?_base36, Option.some.injEq] at read
    exact Digest.toNat_inj read

/-- Nothing is lost where digests are written. A text in base 64 is read as some bytes exactly when
these bytes are written as that text, which takes four characters for three bytes, rounded up. A
number in base 36 is read back from its digits, and only zero begins with the digit zero. And in
every encoding different digests have different texts, unless these are cut. -/
theorem digests_are_written_in_full :
    (∀ bytes : List UInt8,
      (∀ text, Base64.decode? text = some bytes ↔ Base64.encode bytes = text) ∧
        (Base64.encode bytes).length = (4 * bytes.length + 2) / 3) ∧
    (∀ value : Nat, Numeral.read? 36 (Numeral.base36 value) = some value ∧
      ((Numeral.base36 value).head? = some '0' ↔ value = 0)) ∧ Numeral.base36 0 = ['0'] ∧
    ∀ encoding : Encoding, Function.Injective (encoding.encodeTo none) :=
  ⟨fun bytes => ⟨fun _ => Base64.decode?_eq_some_iff, Base64.length_encode bytes⟩,
    fun value => ⟨Numeral.read?_base36 value, Numeral.head?_base36_eq_zero_iff⟩, rfl,
    encode_injective⟩

end Encoding

end ScopedStyles
