import ScopedStyles.Proofs.Exports.Keyframes
import ScopedStyles.Proofs.ScopedName.Expansion
import ScopedStyles.Proofs.Text.Trimming

/-!
Names that are made valid. What cannot stand in an identifier is replaced character by character,
and a low line is put where an identifier cannot begin, so that the result is a plain identifier,
which is printed without escapes and is made valid only once. A lone dash is let through, although
it is no identifier.
-/

namespace ScopedStyles

open Text

namespace Identifier

variable {name : List Char}

/-! ## Safe characters -/

/-- What stands for a character in a valid name. -/
def safe (character : Char) : Char :=
  if isSafe character then character else '_'

theorem sanitize_eq (name : List Char) :
    sanitize name =
      if needsLead (name.map safe) then '_' :: name.map safe else name.map safe :=
  rfl

theorem isSafe_safe (character : Char) : isSafe (safe character) := by
  unfold safe
  split
  · assumption
  · decide

theorem safe_eq_self {character : Char} (isSafe : isSafe character) : safe character = character :=
  if_pos isSafe

theorem map_safe_eq_self (allSafe : ∀ character ∈ name, isSafe character) :
    name.map safe = name :=
  (List.map_congr_left fun character member => safe_eq_self (allSafe character member)).trans
    (List.map_id' name)

theorem isSafe_of_mem_map_safe {character : Char} (member : character ∈ name.map safe) :
    isSafe character := by
  obtain ⟨original, _, rfl⟩ := List.mem_map.mp member
  exact isSafe_safe original

theorem isCharacter_of_isSafe {character : Char} (isSafe : isSafe character) :
    isCharacter character := by
  simp only [Identifier.isSafe, Bool.or_eq_true] at isSafe
  simp only [isCharacter, Bool.or_eq_true]
  tauto

theorem not_isBlank_of_isSafe {character : Char} (isSafe : isSafe character) :
    ¬ isBlank character := by
  have narrow : ¬ isWide character := by
    simp only [Identifier.isSafe, Bool.or_eq_true, beq_iff_eq] at isSafe
    simp only [isWide, decide_eq_true_eq, Nat.not_le]
    rcases isSafe with (isAlphanum | rfl) | rfl
    · exact narrow_of_isAlphanum isAlphanum
    · decide
    · decide
  have passes := passes_of_narrow (fun other => !Identifier.isSafe other || !isBlank other)
    (by decide +kernel) narrow
  simpa [isSafe] using passes

/-! ## Valid names -/

/-- What making a name valid achieves: its characters are safe and it needs no low line. -/
structure IsValid (name : List Char) : Prop where
  allSafe : ∀ character ∈ name, isSafe character
  begins : needsLead name = false

theorem isValid_sanitize (name : List Char) : IsValid (sanitize name) := by
  rw [sanitize_eq]
  split
  · refine ⟨fun character member => ?_, rfl⟩
    rcases List.mem_cons.mp member with rfl | inside
    · decide
    · exact isSafe_of_mem_map_safe inside
  · rename_i noLead
    exact ⟨fun _ => isSafe_of_mem_map_safe, Bool.eq_false_iff.mpr noLead⟩

theorem IsValid.sanitize_eq_self (valid : IsValid name) : sanitize name = name := by
  rw [sanitize_eq, map_safe_eq_self valid.allSafe, valid.begins]
  rfl

theorem sanitize_eq_dash_iff : sanitize name = ['-'] ↔ name = ['-'] := by
  constructor
  · intro same
    rw [sanitize_eq] at same
    split at same
    · cases (List.cons.inj same).1
    · obtain ⟨character, rfl, isDash⟩ := List.map_eq_singleton_iff.mp same
      unfold safe at isDash
      split at isDash
      · rw [isDash]
      · cases isDash
  · rintro rfl
    decide

/-! How a name begins is decided by its first character, and by the second one behind a dash. -/

theorem isPlain_cons {first : Char} (noDash : first ≠ '-') (rest : List Char) :
    isPlain (first :: rest) = (isStart first && rest.all isCharacter) := by
  unfold isPlain
  split
  · contradiction
  · rename_i same
    exact absurd (List.cons.inj same).1 noDash
  · rename_i same
    cases same
    rfl

theorem needsLead_cons {first : Char} (noDash : first ≠ '-') (rest : List Char) :
    needsLead (first :: rest) = first.isDigit := by
  unfold needsLead
  split
  · rename_i same
    exact absurd (List.cons.inj same).1 noDash
  · rename_i same
    cases same
    rfl
  · contradiction

theorem isStart_iff {character : Char} :
    isStart character ↔ isCharacter character ∧ character.isDigit = false := by
  simp [isStart]

theorem IsValid.isPlain_iff (valid : IsValid name) : isPlain name ↔ name ≠ ['-'] := by
  obtain ⟨allSafe, begins⟩ := valid
  have members : ∀ character ∈ name, isCharacter character :=
    fun character member => isCharacter_of_isSafe (allSafe character member)
  cases name with
  | nil => cases begins
  | cons first rest =>
    rw [List.forall_mem_cons] at members
    by_cases isDash : first = '-'
    · subst isDash
      cases rest with
      | nil => decide
      | cons second more =>
        have starts := isStart_iff.mpr ⟨members.2 second List.mem_cons_self, begins⟩
        have continues : more.all isCharacter :=
          List.all_eq_true.mpr (List.forall_mem_cons.mp members.2).2
        simp [isPlain, starts, continues]
    · rw [needsLead_cons isDash] at begins
      rw [isPlain_cons isDash, isStart_iff.mpr ⟨members.1, begins⟩,
        List.all_eq_true.mpr members.2]
      simp [isDash]

/-! ## Plain names are spelled as they are -/

theorem encodeCharacter_eq_self {character : Char} (member : isCharacter character)
    {position : Nat} {afterDash lone : Bool}
    (noDigit : character.isDigit → position ≠ 0 ∧ ¬ (position = 1 ∧ afterDash))
    (notLone : character = '-' → position = 0 → lone = false) :
    encodeCharacter position afterDash lone character = [character] := by
  have noControl := not_isControl_of_isCharacter member
  have noNul : character ≠ '\x00' := by
    rintro rfl
    exact absurd noControl (by decide)
  have noDelete : character.toNat ≠ 127 := by
    intro isDelete
    rw [← Char.ofNat_toNat character, isDelete] at member
    exact absurd member (by decide)
  have noCode : ¬ (character.toNat < 32 || character.toNat == 127 ||
      character.isDigit && (position == 0 || (position == 1 && afterDash))) := by
    simp only [Bool.or_eq_true, decide_eq_true_eq, beq_iff_eq, Bool.and_eq_true, not_or]
    refine ⟨⟨by omega, noDelete⟩, ?_⟩
    rintro ⟨isDigit, atStart | second⟩
    · exact (noDigit isDigit).1 atStart
    · exact (noDigit isDigit).2 second
  have notAlone : ¬ (character = '-' && position == 0 && lone) := by
    simp only [Bool.and_eq_true, decide_eq_true_eq, beq_iff_eq]
    rintro ⟨⟨isDash, atStart⟩, isLone⟩
    rw [notLone isDash atStart] at isLone
    cases isLone
  rw [encodeCharacter, if_neg noNul, if_neg noCode, if_neg notAlone, if_pos member]

theorem flatMap_encodeCharacter_eq_self {position : Nat} {afterDash lone : Bool}
    (members : ∀ character ∈ name, isCharacter character)
    (inside : 2 ≤ position ∨ 1 ≤ position ∧ afterDash = false) :
    ((name.zipIdx position).flatMap fun (character, position) =>
      encodeCharacter position afterDash lone character) = name := by
  induction name generalizing position with
  | nil => rfl
  | cons first rest induction =>
    rw [List.forall_mem_cons] at members
    have spelled : encodeCharacter position afterDash lone first = [first] := by
      apply encodeCharacter_eq_self members.1
      · intro _
        rcases inside with late | ⟨late, noDash⟩
        · omega
        · simp only [noDash]
          exact ⟨by omega, by simp⟩
      · omega
    have later : 2 ≤ position + 1 ∨ 1 ≤ position + 1 ∧ afterDash = false := by omega
    rw [List.zipIdx_cons, List.flatMap_cons, induction members.2 later]
    dsimp only
    rw [spelled, List.singleton_append]

theorem encode_eq_self_of_isPlain (plain : isPlain name) : encode name = name := by
  cases name with
  | nil => rfl
  | cons first rest =>
    by_cases isDash : first = '-'
    · subst isDash
      cases rest with
      | nil => cases plain
      | cons second more =>
        obtain ⟨starts, continues⟩ := Bool.and_eq_true_iff.mp plain
        obtain ⟨member, noDigit⟩ := isStart_iff.mp starts
        have afterDash : (('-' :: second :: more).head? == some '-') = true := rfl
        have notLone : (('-' :: second :: more).length == 1) = false := by simp
        rw [encode, afterDash, notLone, List.zipIdx_cons, List.flatMap_cons, List.zipIdx_cons,
          List.flatMap_cons,
          flatMap_encodeCharacter_eq_self (List.all_eq_true.mp continues) (.inl (Nat.le_refl 2))]
        dsimp only
        rw [encodeCharacter_eq_self member (by simp [noDigit]) (by omega)]
        rfl
    · rw [isPlain_cons isDash, Bool.and_eq_true] at plain
      obtain ⟨member, noDigit⟩ := isStart_iff.mp plain.1
      have afterDash : ((first :: rest).head? == some '-') = false := by simp [isDash]
      rw [encode, afterDash, List.zipIdx_cons, List.flatMap_cons,
        flatMap_encodeCharacter_eq_self (List.all_eq_true.mp plain.2)
          (.inr ⟨Nat.le_refl 1, rfl⟩)]
      dsimp only
      rw [encodeCharacter_eq_self member (by simp [noDigit]) (fun dash => absurd dash isDash)]
      rfl

end Identifier

/-! ## Scoped names -/

/-- A local name is printed under its scoped name as it is: that is an identifier, which stands
unescaped in selectors and verbatim in headers of keyframes, and as a header is read as itself. -/
structure PrintsPlainly (rename : String → String) (localName : String) : Prop where
  valid : isIdentifier (rename localName)
  unescaped : escapeIdentifier (rename localName) = rename localName
  inSelector : ∀ sigil spelling,
    (Selector.Segment.name sigil localName spelling true).render rename =
      String.singleton sigil.character ++ rename localName
  inHeader : ∀ atRule,
    (Collect.MarkedHead.keyframes atRule ⟨localName, true⟩).render rename =
      .keyframes atRule (rename localName)
  readBack : Keyframes.readHeader (rename localName) true = ⟨rename localName, true⟩

theorem sanitizeIdentifier_idem (text : String) :
    sanitizeIdentifier (sanitizeIdentifier text) = sanitizeIdentifier text := by
  have valid := Identifier.isValid_sanitize text.toList
  rw [sanitizeIdentifier, sanitizeIdentifier, String.toList_ofList, valid.sanitize_eq_self]

theorem Identifier.IsValid.trim_eq {name : List Char} (valid : IsValid name) :
    trim (String.ofList name) = String.ofList name := by
  have visible : ∀ character ∈ name, ¬ isBlank character :=
    fun character member => not_isBlank_of_isSafe (valid.allSafe character member)
  rw [trim, String.toList_ofList, trimCharacters_eq_self (startsVisible_of_visible visible)
    (endsVisible_of_visible visible)]

theorem printsPlainly_iff {rename : String → String} {localName : String} {name : List Char}
    (valid : Identifier.IsValid name) (renames : rename localName = String.ofList name) :
    PrintsPlainly rename localName ↔ name ≠ ['-'] := by
  have isPlain : isIdentifier (rename localName) ↔ name ≠ ['-'] := by
    rw [isIdentifier, renames, String.toList_ofList, valid.isPlain_iff]
  refine ⟨fun prints => isPlain.mp prints.valid, fun noDash => ?_⟩
  have plain := isPlain.mpr noDash
  have unescaped : escapeIdentifier (rename localName) = rename localName := by
    rw [escapeIdentifier, Identifier.encode_eq_self_of_isPlain plain, String.ofList_toList]
  refine ⟨plain, unescaped, fun sigil spelling => ?_, fun atRule => rfl, ?_⟩
  · rw [Selector.Segment.render, if_pos rfl, unescaped]
  · exact Keyframes.readHeader_of_plain plain (renames ▸ valid.trim_eq)

/-- Names made by a template are identifiers, printed as they are, in all cases but one: where the
template expands to a lone dash. Making a name valid twice is making it valid once. -/
theorem template_names_are_identifiers (template salt path content : String) :
    (∀ localName,
      PrintsPlainly
          (NameGenerator.generate ⟨.template template, salt⟩ · path content) localName ↔
        NameGenerator.expand template salt localName path content ≠ ['-']) ∧
      ∀ text, sanitizeIdentifier (sanitizeIdentifier text) = sanitizeIdentifier text := by
  refine ⟨fun localName => ?_, sanitizeIdentifier_idem⟩
  have valid := Identifier.isValid_sanitize
    (NameGenerator.expand template salt localName path content)
  rw [printsPlainly_iff valid rfl, Ne, Identifier.sanitize_eq_dash_iff]

/-- The class of a lone dash under its own name: no identifier, and escaped in selectors. -/
theorem lone_dash_is_no_identifier :
    let name := NameGenerator.generate ⟨.template "[local]", ""⟩ "-" "a.css" ""
    name = "-" ∧ isIdentifier name = false ∧ escapeIdentifier name = "\\-" := by
  have stand : List.Forall₂ (Template.StandsFor "" ⟨"-", "a.css", ""⟩)
      [.placeholder ⟨.localName, none, none⟩] ["-".toList] :=
    .cons (.localName rfl) .nil
  have template : String.ofList (Template.ofPieces [.placeholder ⟨.localName, none, none⟩]) =
      "[local]" := by decide
  have expands := Template.expand_ofPieces stand
  rw [template] at expands
  have isDash : NameGenerator.generate ⟨.template "[local]", ""⟩ "-" "a.css" "" = "-" := by
    rw [NameGenerator.generate]
    dsimp only
    rw [expands]
    decide
  rw [isDash]
  decide

end ScopedStyles
