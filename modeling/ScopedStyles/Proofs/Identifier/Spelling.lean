import ScopedStyles.Proofs.Selector.Escapes

/-!
Spelled names. A name is spelled character by character, and every spelling ends where the next one
begins: a plain character stands for itself, another one stands behind a backslash, and a code ends
in the space that belongs to it. So decoding gives the name back, whatever it is. The space behind
the last code may be missing.
-/

namespace ScopedStyles.Identifier

open Text

/-! ## Characters -/

theorem passes_of_narrow (test : Char → Bool) (all : ∀ code < 128, test (Char.ofNat code))
    {character : Char} (narrow : ¬ isWide character) : test character := by
  have passes := all character.toNat (by simpa [isWide] using narrow)
  rwa [Char.ofNat_toNat] at passes

/-- Hexadecimal digits that spell the code of a character. -/
structure Codes (digits : List Char) (character : Char) : Prop where
  nonempty : digits ≠ []
  few : digits.length ≤ 6
  hex : ∀ digit ∈ digits, isHexDigit digit
  value : decodeHex digits = character

/-- The ways to spell a character of a name. -/
inductive CharacterSpelling (character : Char) : List Char → Prop
  | plain (member : isCharacter character) : CharacterSpelling character [character]
  | escaped (noHex : isHexDigit character = false) (noControl : 32 ≤ character.toNat) :
    CharacterSpelling character ['\\', character]
  | coded {digits : List Char} (codes : Codes digits character) :
    CharacterSpelling character ('\\' :: digits ++ [' '])

theorem narrow_of_isHexDigit {digit : Char} (hex : isHexDigit digit) : ¬ isWide digit := by
  have below : digit.val ≤ '9'.val ∨ digit.val ≤ 'f'.val ∨ digit.val ≤ 'F'.val := by
    simp only [isHexDigit, Char.isDigit, Bool.or_eq_true, Bool.and_eq_true, decide_eq_true_eq,
      Char.le_def] at hex
    exact hex.elim (Or.imp And.right fun lower => .inl lower.2) fun upper => .inr (.inr upper.2)
  simp only [isWide, decide_eq_true_eq, Nat.not_le]
  simp only [UInt32.le_iff_toNat_le] at below
  rcases below with below | below | below <;> exact Nat.lt_of_le_of_lt below (by decide)

theorem isCharacter_of_isHexDigit {digit : Char} (hex : isHexDigit digit) : isCharacter digit := by
  have passes := passes_of_narrow (fun other => !isHexDigit other || isCharacter other)
    (by decide +kernel) (narrow_of_isHexDigit hex)
  simpa [hex] using passes

theorem not_isBlank_of_isHexDigit {digit : Char} (hex : isHexDigit digit) : ¬ isBlank digit := by
  have passes := passes_of_narrow (fun other => !isHexDigit other || !isBlank other)
    (by decide +kernel) (narrow_of_isHexDigit hex)
  simpa [hex] using passes

theorem not_isControl_of_isCharacter {character : Char} (member : isCharacter character) :
    32 ≤ character.toNat := by
  by_cases wide : isWide character
  · have above : 128 ≤ character.toNat := by simpa [isWide] using wide
    omega
  · have passes := passes_of_narrow
      (fun other => !isCharacter other || 32 ≤ other.toNat) (by decide +kernel) wide
    simpa [member] using passes

theorem codes_hexText_of_lt : ∀ code < 128, code ≠ 0 →
    hexText code ≠ [] ∧ (hexText code).length ≤ 6 ∧ (hexText code).all isHexDigit ∧
      decodeHex (hexText code) = Char.ofNat code := by
  decide +kernel

theorem codes_hexText {character : Char} (narrow : character.toNat < 128)
    (noNul : character ≠ '\x00') : Codes (hexText character.toNat) character := by
  have isCode : character.toNat ≠ 0 := fun isZero =>
    noNul (by rw [← Char.ofNat_toNat character, isZero])
  obtain ⟨nonempty, few, hex, value⟩ := codes_hexText_of_lt character.toNat narrow isCode
  exact ⟨nonempty, few, List.all_eq_true.mp hex, value.trans (Char.ofNat_toNat character)⟩

theorem narrow_of_isDigit {character : Char} (isDigit : character.isDigit) :
    character.toNat < 128 := by
  simp only [Char.isDigit, Bool.and_eq_true, decide_eq_true_eq, UInt32.le_iff_toNat_le] at isDigit
  exact Nat.lt_of_le_of_lt isDigit.2 (by decide)

theorem narrow_of_isAlphanum {character : Char} (isAlphanum : character.isAlphanum) :
    character.toNat < 128 := by
  have below {last : Char} (ascii : last.toNat < 128) (before : character.val ≤ last.val) :
      character.toNat < 128 :=
    Nat.lt_of_le_of_lt (UInt32.le_iff_toNat_le.mp before) ascii
  rcases Bool.or_eq_true_iff.mp isAlphanum with isAlpha | isDigit
  · rcases Bool.or_eq_true_iff.mp isAlpha with isUpper | isLower
    · exact @below 'Z' (by decide) (of_decide_eq_true isUpper).2
    · exact @below 'z' (by decide) (of_decide_eq_true (Bool.and_eq_true_iff.mp isLower).2)
  · exact narrow_of_isDigit isDigit

theorem spells_encodeCharacter_of_ne {character : Char} (noNul : character ≠ '\x00')
    (position : Nat) (afterDash lone : Bool) :
    CharacterSpelling character (encodeCharacter position afterDash lone character) := by
  unfold encodeCharacter
  dsimp only
  rw [if_neg noNul]
  split
  · rename_i byCode
    refine .coded (codes_hexText ?_ noNul)
    simp only [Bool.or_eq_true, decide_eq_true_eq, beq_iff_eq, Bool.and_eq_true] at byCode
    rcases byCode with (control | delete) | ⟨isDigit, _⟩
    · omega
    · omega
    · exact narrow_of_isDigit isDigit
  rename_i noCode
  have noControl : 32 ≤ character.toNat := by
    simp only [Bool.or_eq_true, decide_eq_true_eq, not_or, Nat.not_lt] at noCode
    exact noCode.1.1
  split
  · rename_i loneDash
    simp only [Bool.and_eq_true, decide_eq_true_eq] at loneDash
    obtain ⟨⟨rfl, _⟩, _⟩ := loneDash
    exact .escaped (by decide) noControl
  split
  · exact .plain ‹_›
  · rename_i noMember
    exact .escaped (Bool.eq_false_iff.mpr (mt isCharacter_of_isHexDigit noMember)) noControl

/-! ## Reading a spelled character -/

section

variable {character : Char} {digits : List Char}

theorem Codes.hexDigits_append (codes : Codes digits character) {rest : List Char}
    (ends : ∀ first, rest.head? = some first → isHexDigit first = false) :
    hexDigits (digits ++ rest) = digits := by
  have whole : digits.take 6 = digits := List.take_of_length_le codes.few
  have all : (digits ++ []).takeWhile isHexDigit = digits ++ [].takeWhile isHexDigit :=
    List.takeWhile_append_of_pos codes.hex
  rw [hexDigits, Selector.takeWhile_take_append ends, whole]
  simpa using all

theorem Codes.readEscape_append (codes : Codes digits character) (rest : List Char)
    (ends : ∀ first, rest.head? = some first → isHexDigit first = false) :
    readEscape (digits ++ rest) =
      ⟨digits ++ rest.take (terminatorLength rest), character,
        rest.drop (terminatorLength rest)⟩ := by
  have nonempty : digits.isEmpty = false := by simpa using codes.nonempty
  rw [readEscape.eq_def, codes.hexDigits_append ends]
  dsimp only
  rw [nonempty, if_neg Bool.false_ne_true, List.drop_left, List.take_length_add_append,
    List.drop_length_add_append, codes.value]

/-- A character that is not spelled by itself is read as an escape, whatever follows it. -/
theorem CharacterSpelling.plain_or_escape {spelling : List Char}
    (spells : CharacterSpelling character spelling) :
    spelling = [character] ∧ isCharacter character ∨
      ∃ behind, spelling = '\\' :: behind ∧
        ∀ rest, readEscape (behind ++ rest) = ⟨behind, character, rest⟩ := by
  cases spells with
  | plain member => exact .inl ⟨rfl, member⟩
  | escaped noHex _ =>
    refine .inr ⟨[character], rfl, fun rest => Selector.readEscape_cons ?_⟩
    simp [hexDigits, noHex]
  | @coded digits codes =>
    refine .inr ⟨digits ++ [' '], rfl, fun rest => ?_⟩
    have read := codes.readEscape_append (' ' :: rest) (by
      rintro first ⟨⟩
      decide)
    rwa [List.append_assoc, List.singleton_append]

theorem ne_backslash_of_isCharacter (member : isCharacter character) : character ≠ '\\' := by
  rintro rfl
  revert member
  decide

theorem decode_cons_of_isCharacter (member : isCharacter character) (rest : List Char) :
    decode (character :: rest) = character :: decode rest := by
  rw [decode, if_neg (ne_backslash_of_isCharacter member)]

theorem CharacterSpelling.decode_append {spelling : List Char}
    (spells : CharacterSpelling character spelling) (rest : List Char) :
    decode (spelling ++ rest) = character :: decode rest := by
  rcases spells.plain_or_escape with ⟨rfl, member⟩ | ⟨behind, rfl, reads⟩
  · exact decode_cons_of_isCharacter member rest
  · rw [List.cons_append, decode, if_pos rfl, reads]

theorem CharacterSpelling.spanName_append {spelling : List Char}
    (spells : CharacterSpelling character spelling) (rest : List Char) :
    Selector.spanName (spelling ++ rest) =
      (spelling ++ (Selector.spanName rest).1, (Selector.spanName rest).2) := by
  rcases spells.plain_or_escape with ⟨rfl, member⟩ | ⟨behind, rfl, reads⟩
  · rw [List.singleton_append, Selector.spanName,
      if_neg (ne_backslash_of_isCharacter member), if_pos member]
    rfl
  · rw [List.cons_append, Selector.spanName_backslash, reads]

end

/-! ## Names -/

/-- A text spells a name: it spells its characters one behind the other, and where the last one is
spelled by its code the space behind the code may be missing. -/
inductive Spells : (name text : List Char) → Prop
  | nil : Spells [] []
  | cons {character : Char} {spelling name text : List Char}
    (first : CharacterSpelling character spelling) (behind : Spells name text) :
    Spells (character :: name) (spelling ++ text)
  | unended {character : Char} {digits : List Char} (codes : Codes digits character) :
    Spells [character] ('\\' :: digits)

/-- A name as it can be spelled: a character that cannot be written is replaced. -/
def writable (name : List Char) : List Char :=
  name.map fun character => if character = '\x00' then replacement else character

theorem writable_eq_self {name : List Char} (noNul : '\x00' ∉ name) : writable name = name := by
  refine (List.map_congr_left fun character member => if_neg ?_).trans (List.map_id' name)
  rintro rfl
  exact noNul member

/-- However it stands in a name, a character is spelled as it can be. -/
theorem spells_encodeCharacter (character : Char) (position : Nat) (afterDash lone : Bool) :
    CharacterSpelling (if character = '\x00' then replacement else character)
      (encodeCharacter position afterDash lone character) := by
  split
  · rename_i isNul
    rw [isNul]
    exact .plain (by decide)
  · exact spells_encodeCharacter_of_ne ‹_› position afterDash lone

theorem spells_flatMap (name : List Char) (position : Nat) (afterDash lone : Bool) :
    Spells (writable name) ((name.zipIdx position).flatMap fun (character, position) =>
      encodeCharacter position afterDash lone character) := by
  induction name generalizing position with
  | nil => exact .nil
  | cons character rest induction =>
    rw [List.zipIdx_cons, List.flatMap_cons]
    exact .cons (spells_encodeCharacter character position afterDash lone)
      (induction (position + 1))

theorem spells_encode (name : List Char) : Spells (writable name) (encode name) :=
  spells_flatMap name 0 _ _

namespace Spells

variable {name text : List Char}

theorem readEscape_unended {character : Char} {digits : List Char}
    (codes : Codes digits character) : readEscape digits = ⟨digits, character, []⟩ := by
  have read := codes.readEscape_append [] nofun
  simpa [terminatorLength] using read

theorem decode_eq (spells : Spells name text) : decode text = name := by
  induction spells with
  | nil => rw [decode]
  | cons first _ induction => rw [first.decode_append, induction]
  | unended codes => rw [decode, if_pos rfl, readEscape_unended codes, decode]

theorem spanName_eq (spells : Spells name text) : Selector.spanName text = (text, []) := by
  induction spells with
  | nil => rw [Selector.spanName]
  | cons first _ induction => rw [first.spanName_append, induction]
  | @unended _ digits codes =>
    rw [Selector.spanName_backslash, readEscape_unended codes, Selector.spanName]
    simp

theorem ne_nil (spells : Spells name text) (named : name ≠ []) : text ≠ [] := by
  cases spells with
  | nil => exact absurd rfl named
  | cons first => cases first <;> simp
  | unended => exact List.cons_ne_nil _ _

end Spells

theorem exists_startsName_encode {name : List Char} (named : name ≠ []) :
    ∃ first rest, encode name = first :: rest ∧ Selector.startsName first := by
  obtain ⟨character, name, rfl⟩ := List.exists_cons_of_ne_nil named
  rw [encode, List.zipIdx_cons, List.flatMap_cons]
  generalize (name.zipIdx (0 + 1)).flatMap _ = behind
  dsimp only
  unfold encodeCharacter
  dsimp only
  split
  · exact ⟨_, _, rfl, by decide⟩
  split
  · exact ⟨_, _, rfl, by decide⟩
  rename_i noCode
  split
  · exact ⟨_, _, rfl, by decide⟩
  split
  · rename_i member
    refine ⟨_, _, rfl, ?_⟩
    have noDigit : (32 ≤ character.toNat ∧ ¬ character.toNat = 127) ∧
        character.isDigit = false := by simpa using noCode
    simp only [isCharacter, Char.isAlphanum, noDigit.2, Bool.or_false, Bool.or_eq_true,
      beq_iff_eq] at member
    rcases member with ((alpha | rfl) | rfl) | wide
    · simp [Selector.startsName, alpha]
    · decide
    · decide
    · simp [Selector.startsName, wide]
  · exact ⟨_, _, rfl, by decide⟩

/-! ## Ends of names -/

/-- Whether the spelling of a name keeps its last character when it is trimmed: that is white space
only if it is spelled by its code. -/
def endsFirmly (name : List Char) : Bool :=
  name.getLast?.all fun last => !isBlank last || last.toNat < 32

theorem endsFirmly_cons {character : Char} {name : List Char} (named : name ≠ [])
    (firm : endsFirmly (character :: name)) : endsFirmly name := by
  obtain ⟨first, rest, rfl⟩ := List.exists_cons_of_ne_nil named
  rwa [endsFirmly, List.getLast?_cons_cons] at firm

theorem endsFirmly_writable {name : List Char} (firm : endsFirmly name) :
    endsFirmly (writable name) := by
  rw [endsFirmly, writable, List.getLast?_map]
  rw [endsFirmly] at firm
  cases ending : name.getLast? with
  | none => rfl
  | some last =>
    rw [ending] at firm
    rw [Option.map_some, Option.all_some]
    split
    · decide
    · exact firm

theorem not_isBlank_getLast {digits : List Char} (first : Char)
    (nonempty : digits ≠ []) (hex : ∀ digit ∈ digits, isHexDigit digit) :
    ¬ (first :: digits).getLast?.any isBlank := by
  rw [List.getLast?_cons_of_ne_nil nonempty, List.getLast?_eq_some_getLast nonempty]
  exact not_isBlank_of_isHexDigit (hex _ (List.getLast_mem nonempty))

theorem CharacterSpelling.exists_firm {character : Char} {spelling : List Char}
    (spells : CharacterSpelling character spelling) (firm : endsFirmly [character]) :
    ∃ ending, Spells [character] ending ∧ ¬ ending.getLast?.any isBlank ∧
      (spelling = ending ∨ spelling = ending ++ [' ']) := by
  have single : Spells [character] spelling := by
    rw [← List.append_nil spelling]
    exact .cons spells .nil
  have visible : isBlank character → character.toNat < 32 := by
    simpa [endsFirmly, Classical.or_iff_not_imp_left] using firm
  cases spells with
  | plain member =>
    have noControl := not_isControl_of_isCharacter member
    exact ⟨_, single, fun blank => absurd (visible (by simpa using blank)) (by omega), .inl rfl⟩
  | escaped _ noControl =>
    exact ⟨_, single, fun blank => absurd (visible (by simpa using blank)) (by omega), .inl rfl⟩
  | coded codes =>
    exact ⟨_, .unended codes, not_isBlank_getLast _ codes.nonempty codes.hex, .inr rfl⟩

/-- A spelled name is trimmed to a spelling of the name; what is lost is the space behind a code. -/
theorem Spells.exists_firm {name text : List Char} (spells : Spells name text)
    (firm : endsFirmly name) :
    ∃ spelling, Spells name spelling ∧ ¬ spelling.getLast?.any isBlank ∧
      (text = spelling ∨ text = spelling ++ [' ']) := by
  induction spells with
  | nil => exact ⟨[], .nil, by simp, .inl rfl⟩
  | unended codes =>
    exact ⟨_, .unended codes, not_isBlank_getLast _ codes.nonempty codes.hex, .inl rfl⟩
  | @cons character first name text spelled behind induction =>
    by_cases named : name = []
    · subst named
      obtain rfl : [] = text := by cases behind; rfl
      rw [List.append_nil]
      exact spelled.exists_firm firm
    · obtain ⟨spelling, spells, ends, whole⟩ := induction (endsFirmly_cons named firm)
      refine ⟨first ++ spelling, .cons spelled spells, ?_, ?_⟩
      · have nonempty := spells.ne_nil named
        rwa [List.getLast?_append, Option.or_of_isSome (by simpa using nonempty)]
      · rcases whole with rfl | rfl
        · exact .inl rfl
        · exact .inr (List.append_assoc _ _ _).symm

end ScopedStyles.Identifier
