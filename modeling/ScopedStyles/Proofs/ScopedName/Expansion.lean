import Mathlib.Data.List.Forall2
import ScopedStyles.Proofs.Identifier.Spelling
import ScopedStyles.Proofs.ScopedName.Templates
import ScopedStyles.ScopedName.Generator

/-!
Expanding a template. Every piece stands for a text of its own, which depends on the piece and on
what the name is made for and on nothing else; the expansion is these texts in order. What stands
for a placeholder is not read again, so names and paths may look like placeholders.
-/

namespace ScopedStyles

open Text

/-- What a scoped name is made for: a local name, the path of its file and the content of the
file. -/
structure NameOrigin where
  localName : String
  path : String
  content : String
deriving DecidableEq

/-! ## Parts of a path -/

namespace PathParts

/-- A text cut at the last occurrence of a separator; without one, all of it stands behind. -/
inductive CutAtLast (separator : Char) : (text before behind : List Char) → Prop
  | cut {before behind : List Char} (absent : separator ∉ behind) :
    CutAtLast separator (before ++ separator :: behind) before behind
  | whole {text : List Char} (absent : separator ∉ text) : CutAtLast separator text [] text

/-- A file name is a name and what follows its last dot, unless the dot begins it. -/
inductive IsFileName : (file name extension : List Char) → Prop
  | extended {name extension : List Char} (named : name ≠ []) (last : '.' ∉ extension) :
    IsFileName (name ++ '.' :: extension) name extension
  | plain {file : List Char} (noDot : '.' ∉ file.drop 1) : IsFileName file file []

/-- The parts are those of a path: its directories, each with a slash behind it and without slashes
before the first, the last of them, and the parts of its file name. -/
structure AreOf (parts : PathParts) (path : List Char) : Prop where
  cut : ∃ directory file above, CutAtLast '/' path directory file ∧
    IsFileName file parts.name parts.extension ∧ CutAtLast '/' directory above parts.folder ∧
    parts.directories = if directory = [] then [] else directory.dropWhile (· = '/') ++ ['/']

theorem cutLast?_append {separator : Char} {behind : List Char} (absent : separator ∉ behind)
    (before : List Char) :
    cutLast? separator (before ++ separator :: behind) = some (before, behind) := by
  have taken : (before ++ separator :: behind).reverse.takeWhile (· ≠ separator) =
      behind.reverse := by
    rw [List.reverse_append, List.reverse_cons, List.append_assoc,
      List.takeWhile_append_of_pos]
    · simp
    · intro character member
      have different : character ≠ separator := by
        rintro rfl
        exact absent (List.mem_reverse.mp member)
      simpa using different
  have length : (before ++ separator :: behind).length - behind.length - 1 = before.length := by
    simp only [List.length_append, List.length_cons]
    omega
  simp only [cutLast?, taken, List.reverse_reverse, length, List.take_left]
  simp

theorem cutLast?_of_not_mem {separator : Char} {text : List Char} (absent : separator ∉ text) :
    cutLast? separator text = none :=
  if_neg absent

theorem getD_cutLast? {separator : Char} {text before behind : List Char}
    (cut : CutAtLast separator text before behind) :
    (cutLast? separator text).getD ([], text) = (before, behind) := by
  cases cut with
  | cut absent => rw [cutLast?_append absent, Option.getD_some]
  | whole absent => rw [cutLast?_of_not_mem absent, Option.getD_none]

theorem exists_cutAtLast (separator : Char) (text : List Char) :
    ∃ before behind, CutAtLast separator text before behind := by
  by_cases member : separator ∈ text
  · obtain ⟨after, ahead, split, absent⟩ :=
      List.eq_append_cons_of_mem (List.mem_reverse.mpr member)
    have whole : text = ahead.reverse ++ separator :: after.reverse := by
      rw [← List.reverse_reverse text, split]
      simp
    rw [whole]
    exact ⟨_, _, .cut fun inside => absent (List.mem_reverse.mp inside)⟩
  · exact ⟨[], text, .whole member⟩

/-- The name and the extension that are found in a file name. -/
def ofFileName (file : List Char) : List Char × List Char :=
  match cutLast? '.' file with
  | some (name, extension) => if name.isEmpty then (file, []) else (name, extension)
  | none => (file, [])

theorem ofFileName_eq {file name extension : List Char} (parts : IsFileName file name extension) :
    ofFileName file = (name, extension) := by
  cases parts with
  | extended named last =>
    rw [ofFileName, cutLast?_append last]
    simp [named]
  | plain noDot =>
    rcases exists_cutAtLast '.' file with ⟨before, behind, cut⟩
    cases cut with
    | whole absent => rw [ofFileName, cutLast?_of_not_mem absent]
    | cut absent =>
      cases before with
      | nil =>
        rw [ofFileName, cutLast?_append absent]
        rfl
      | cons character more => simp at noDot

theorem exists_isFileName (file : List Char) :
    ∃ name extension, IsFileName file name extension := by
  rcases exists_cutAtLast '.' file with ⟨before, behind, cut⟩
  cases cut with
  | whole absent => exact ⟨file, [], .plain fun inside => absent (List.mem_of_mem_drop inside)⟩
  | cut absent =>
    by_cases named : before = []
    · subst named
      exact ⟨_, [], .plain absent⟩
    · exact ⟨before, behind, .extended named absent⟩

theorem ofPath_eq {path : List Char} {parts : PathParts} (are : parts.AreOf path) :
    ofPath path = parts := by
  obtain ⟨directory, file, above, cutPath, isName, cutDirectory, directories⟩ := are.cut
  have folder := congrArg Prod.snd (getD_cutLast? cutDirectory)
  have name := ofFileName_eq isName
  rw [ofPath, getD_cutLast? cutPath]
  change PathParts.mk (ofFileName file).1 (ofFileName file).2 _ _ = parts
  rw [name]
  dsimp only
  rw [folder]
  obtain ⟨_, _, _, _⟩ := parts
  simp_all

theorem ofPath_areOf (path : List Char) : (ofPath path).AreOf path := by
  obtain ⟨directory, file, cutPath⟩ := exists_cutAtLast '/' path
  obtain ⟨name, extension, isName⟩ := exists_isFileName file
  obtain ⟨above, folder, cutDirectory⟩ := exists_cutAtLast '/' directory
  have are : AreOf ⟨name, extension, folder,
      if directory = [] then [] else directory.dropWhile (· = '/') ++ ['/']⟩ path :=
    ⟨directory, file, above, cutPath, isName, cutDirectory, rfl⟩
  rwa [ofPath_eq are]

end PathParts

/-! ## Texts of a digest -/

namespace Template

open NameGenerator

/-- What a digest is written as, given the encoding and the length of a placeholder; nothing if the
encoding is unknown. A length that is too large or not of ASCII counts as none. -/
inductive DigestText (digest : Digest) :
    Option (Run isEncodingCharacter) → Option (Run isDecimal) → Option (List Char) → Prop
  | bare : DigestText digest none none (some (Encoding.base64.encodeTo (some 8) digest))
  /-- Digits of ASCII are the length of a text in base 64, which is whole if it is not longer. -/
  | counted {digits : Run isDecimal} (ascii : digits.1.all Char.isDigit) :
    DigestText digest none (some digits)
      (some (Encoding.base64.encodeTo (length? digits.1) digest))
  | foreign {digits : Run isDecimal} (foreign : ¬ digits.1.all Char.isDigit) :
    DigestText digest none (some digits) (some (Encoding.base64.encodeTo (some 8) digest))
  | encoded {word : Run isEncodingCharacter} {length : Option (Run isDecimal)} {encoding : Encoding}
    (known : Encoding.ofName? (String.ofList word.1) = some encoding) :
    DigestText digest (some word) length
      (some (encoding.encodeTo (length.bind fun digits => length? digits.1) digest))
  /-- A number in the place of the encoding is a length where no other one is given. -/
  | number {word : Run isEncodingCharacter} {length : Option (Run isDecimal)}
    (ascii : word.1.all Char.isDigit)
    (noLength : length.bind (fun digits => length? digits.1) = none) :
    DigestText digest (some word) length
      (some (Encoding.base64.encodeTo (length? word.1) digest))
  | unknown {word : Run isEncodingCharacter} {length : Option (Run isDecimal)}
    (noEncoding : Encoding.ofName? (String.ofList word.1) = none)
    (noNumber : word.1.all Char.isDigit →
      length.bind (fun digits => length? digits.1) ≠ none) :
    DigestText digest (some word) length none

/-- The decimal digits that can stand in an encoding are those of ASCII. -/
theorem isEncodingCharacter_eq {digit : Char} (decimal : isDecimal digit) :
    isEncodingCharacter digit = digit.isDigit := by
  by_cases wide : isWide digit
  · have noLetter : digit.isLower = false := by
      refine Bool.eq_false_iff.mpr fun isLower => ?_
      have isAlpha : digit.isAlpha := Bool.or_eq_true_iff.mpr (.inr isLower)
      have narrow := Identifier.narrow_of_isAlphanum (Bool.or_eq_true_iff.mpr (.inl isAlpha))
      exact absurd narrow (Nat.not_lt.mpr (of_decide_eq_true wide))
    rw [isEncodingCharacter, noLetter, Bool.false_or]
  · have passes := Identifier.passes_of_narrow
      (fun other => !isDecimal other || isEncodingCharacter other == other.isDigit)
      (by decide +kernel) wide
    simpa [decimal] using passes

theorem all_isEncodingCharacter (digits : Run isDecimal) :
    digits.1.all isEncodingCharacter = digits.1.all Char.isDigit := by
  rw [Bool.eq_iff_iff, List.all_eq_true, List.all_eq_true]
  refine forall₂_congr fun digit member => ?_
  rw [isEncodingCharacter_eq (List.all_eq_true.mp digits.2.2 digit member)]

theorem not_all_isDigit {word : List Char} {encoding : Encoding}
    (known : Encoding.ofName? (String.ofList word) = some encoding) :
    ¬ word.all Char.isDigit := by
  have named (name : String) (isName : String.ofList word = name) : word = name.toList := by
    rw [← isName, String.toList_ofList]
  unfold Encoding.ofName? at known
  split at known
  · rw [named _ ‹_›]
    decide
  split at known
  · rw [named _ ‹_›]
    decide
  split at known
  · rw [named _ ‹_›]
    decide
  · cases known

theorem length?_of_foreign {digits : List Char} (foreign : ¬ digits.all Char.isDigit) :
    length? digits = none := by
  simp [length?, foreign]

theorem groups_encoded (subject : Subject) (word : Run isEncodingCharacter)
    (length : Option (Run isDecimal)) :
    WrittenPlaceholder.groups ⟨subject, some word, length⟩ =
      (some word.1, length.map Subtype.val) :=
  rfl

theorem encode?_encoded (word : Run isEncodingCharacter) (length : Option (Run isDecimal))
    (digest : Digest) :
    encode? (some word.1) (length.map Subtype.val) digest =
      if (length.bind fun digits => length? digits.1).isNone && word.1.all Char.isDigit then
        some (Encoding.base64.encodeTo (length? word.1) digest)
      else
        (Encoding.ofName? (String.ofList word.1)).map fun encoding =>
          encoding.encodeTo (length.bind fun digits => length? digits.1) digest := by
  rw [encode?, Option.bind_map]
  rfl

theorem encode?_of_digestText {digest : Digest} {written : WrittenPlaceholder}
    {text : Option (List Char)} (writes : DigestText digest written.encoding written.length text) :
    encode? written.groups.1 written.groups.2 digest = text := by
  obtain ⟨subject, encoding, length⟩ := written
  dsimp only at writes
  cases writes with
  | bare => rfl
  | @counted digits ascii =>
    have groups : WrittenPlaceholder.groups ⟨subject, none, some digits⟩ = (some digits.1, none) :=
      if_pos ((all_isEncodingCharacter digits).trans ascii)
    rw [groups]
    exact if_pos ascii
  | @foreign digits foreign =>
    have groups : WrittenPlaceholder.groups ⟨subject, none, some digits⟩ = (none, some digits.1) :=
      if_neg ((all_isEncodingCharacter digits).symm ▸ foreign)
    rw [groups, encode?, Option.bind_some, length?_of_foreign foreign]
    rfl
  | encoded known =>
    rw [groups_encoded, encode?_encoded, if_neg, known, Option.map_some]
    simp [not_all_isDigit known]
  | number ascii noLength =>
    rw [groups_encoded, encode?_encoded, if_pos]
    simp [ascii, noLength]
  | unknown noEncoding noNumber =>
    rw [groups_encoded, encode?_encoded, if_neg, noEncoding, Option.map_none]
    rw [Bool.and_eq_true, Option.isNone_iff_eq_none]
    exact fun ⟨noLength, ascii⟩ => noNumber ascii noLength

theorem exists_digestText (digest : Digest) (encoding : Option (Run isEncodingCharacter))
    (length : Option (Run isDecimal)) : ∃ text, DigestText digest encoding length text := by
  cases encoding with
  | none =>
    cases length with
    | none => exact ⟨_, .bare⟩
    | some digits =>
      by_cases ascii : digits.1.all Char.isDigit
      · exact ⟨_, .counted ascii⟩
      · exact ⟨_, .foreign ascii⟩
  | some word =>
    cases known : Encoding.ofName? (String.ofList word.1) with
    | some encoding => exact ⟨_, .encoded known⟩
    | none =>
      by_cases isNumber : word.1.all Char.isDigit ∧
          length.bind (fun digits => length? digits.1) = none
      · exact ⟨_, .number isNumber.1 isNumber.2⟩
      · exact ⟨_, .unknown known fun ascii noLength => isNumber ⟨ascii, noLength⟩⟩

/-! ## Texts of pieces -/

/-- What a piece stands for in the names made for an origin: a literal for itself, a placeholder for
the local name, a part of the path or the text of a digest. A placeholder whose encoding is unknown
stands for itself. -/
inductive StandsFor (salt : String) (origin : NameOrigin) : Piece → List Char → Prop
  | literal {text : List Char} (plain : '[' ∉ text) :
    StandsFor salt origin (.literal text plain) text
  | localName {written : WrittenPlaceholder} (asks : written.subject = .localName) :
    StandsFor salt origin (.placeholder written) origin.localName.toList
  | fileName {written : WrittenPlaceholder} {parts : PathParts}
    (asks : written.subject = .fileName) (are : parts.AreOf origin.path.toList) :
    StandsFor salt origin (.placeholder written) parts.name
  | extension {written : WrittenPlaceholder} {parts : PathParts}
    (asks : written.subject = .extension) (are : parts.AreOf origin.path.toList) :
    StandsFor salt origin (.placeholder written) parts.extension
  | folder {written : WrittenPlaceholder} {parts : PathParts}
    (asks : written.subject = .folder) (are : parts.AreOf origin.path.toList) :
    StandsFor salt origin (.placeholder written) parts.folder
  | path {written : WrittenPlaceholder} {parts : PathParts}
    (asks : written.subject = .path) (are : parts.AreOf origin.path.toList) :
    StandsFor salt origin (.placeholder written) parts.directories
  | hash {written : WrittenPlaceholder} {text : Option (List Char)}
    (asks : written.subject = .hash)
    (writes : DigestText (Xxh3.hash (hashInput salt origin.localName origin.path origin.content))
      written.encoding written.length text) :
    StandsFor salt origin (.placeholder written) (text.getD written.spelling)
  | contentHash {written : WrittenPlaceholder} {text : Option (List Char)}
    (asks : written.subject = .contentHash)
    (writes : DigestText (Xxh3.hash origin.content.toUTF8) written.encoding written.length text) :
    StandsFor salt origin (.placeholder written) (text.getD written.spelling)

variable {salt : String} {origin : NameOrigin}

theorem StandsFor.flatMap_expandPart {piece : Piece} {text : List Char}
    (stands : StandsFor salt origin piece text) :
    piece.parts.flatMap (expandPart salt origin.localName origin.path origin.content) = text := by
  cases stands with
  | literal plain => simp [Piece.parts, expandPart, List.flatMap_map]
  | localName asks => simp [Piece.parts, expandPart, WrittenPlaceholder.placeholder, asks]
  | fileName asks are | extension asks are | folder asks are | path asks are =>
    simp [Piece.parts, expandPart, WrittenPlaceholder.placeholder, asks, PathParts.ofPath_eq are]
  | hash asks writes | contentHash asks writes =>
    rw [← encode?_of_digestText writes]
    simp [Piece.parts, expandPart, WrittenPlaceholder.placeholder, asks]

theorem exists_standsFor (salt : String) (origin : NameOrigin) (piece : Piece) :
    ∃ text, StandsFor salt origin piece text := by
  cases piece with
  | literal text plain => exact ⟨text, .literal plain⟩
  | placeholder written =>
    have are := PathParts.ofPath_areOf origin.path.toList
    have writes (digest : Digest) := exists_digestText digest written.encoding written.length
    cases asks : written.subject with
    | localName => exact ⟨_, .localName asks⟩
    | fileName => exact ⟨_, .fileName asks are⟩
    | extension => exact ⟨_, .extension asks are⟩
    | folder => exact ⟨_, .folder asks are⟩
    | path => exact ⟨_, .path asks are⟩
    | hash =>
      obtain ⟨text, writes⟩ := writes (Xxh3.hash
        (hashInput salt origin.localName origin.path origin.content))
      exact ⟨_, .hash asks writes⟩
    | contentHash =>
      obtain ⟨text, writes⟩ := writes (Xxh3.hash origin.content.toUTF8)
      exact ⟨_, .contentHash asks writes⟩

theorem expand_ofPieces {pieces : List Piece} {texts : List (List Char)}
    (stand : List.Forall₂ (StandsFor salt origin) pieces texts) :
    expand (String.ofList (ofPieces pieces)) salt origin.localName origin.path origin.content =
      texts.flatten := by
  rw [expand, String.toList_ofList, read_ofPieces, List.flatMap_assoc]
  induction stand with
  | nil => rfl
  | cons first _ induction =>
    rw [List.flatMap_cons, first.flatMap_expandPart, induction, List.flatten_cons]

/-- Expanding a template is substituting all of its placeholders at once. Every piece stands for
exactly one text, and whatever pieces a template is put together from, its expansion is what they
stand for, one behind the other. -/
theorem expansion_is_simultaneous (salt : String) (origin : NameOrigin) :
    (∀ piece, ∃! text, StandsFor salt origin piece text) ∧
      ∀ pieces texts, List.Forall₂ (StandsFor salt origin) pieces texts →
        expand (String.ofList (ofPieces pieces)) salt origin.localName origin.path origin.content =
          texts.flatten := by
  refine ⟨fun piece => ?_, fun pieces texts => expand_ofPieces⟩
  obtain ⟨text, stands⟩ := exists_standsFor salt origin piece
  refine ⟨text, stands, fun other standsToo => ?_⟩
  exact standsToo.flatMap_expandPart.symm.trans stands.flatMap_expandPart

/-- A local name and a file name that look like placeholders stay as they are, next to a placeholder
with an unknown encoding, to the beginning of a digest and to one of length zero. -/
theorem lookalikes_are_kept :
    let origin : NameOrigin := ⟨"[hash]", "src/[local].css", ""⟩
    let unknown : WrittenPlaceholder :=
      ⟨.hash, some ⟨"md5".toList, by decide⟩, some ⟨"4".toList, by decide⟩⟩
    let short : WrittenPlaceholder :=
      ⟨.hash, some ⟨"hex".toList, by decide⟩, some ⟨"4".toList, by decide⟩⟩
    let empty : WrittenPlaceholder := ⟨.contentHash, none, some ⟨"0".toList, by decide⟩⟩
    let pieces : List Piece :=
      [.placeholder ⟨.localName, none, none⟩, .literal "x]".toList (by decide),
        .placeholder unknown, .placeholder ⟨.fileName, none, none⟩, .placeholder short,
        .placeholder empty]
    let texts := ["[hash]".toList, "x]".toList, "[hash:md5:4]".toList, "[local]".toList,
      "f872".toList, []]
    String.ofList (ofPieces pieces) = "[local]x][hash:md5:4][name][hash:hex:4][contenthash:0]" ∧
      List.Forall₂ (StandsFor "" origin) pieces texts ∧
      expand (String.ofList (ofPieces pieces)) "" "[hash]" "src/[local].css" "" =
        "[hash]x][hash:md5:4][local]f872".toList := by
  intro origin unknown short empty pieces texts
  have named : StandsFor "" origin (.placeholder ⟨.fileName, none, none⟩) "[local]".toList :=
    @StandsFor.fileName "" origin ⟨.fileName, none, none⟩ _ rfl
      (PathParts.ofPath_areOf "src/[local].css".toList)
  have keepsUnknown : StandsFor "" origin (.placeholder unknown) "[hash:md5:4]".toList :=
    @StandsFor.hash "" origin unknown none rfl (.unknown (by decide) (by decide))
  have written (digest : Digest) : DigestText digest short.encoding short.length
      (some (Encoding.hex.encodeTo (some 4) digest)) := .encoded rfl
  have begins : Encoding.hex.encodeTo (some 4)
      (Xxh3.hash (hashInput "" "[hash]" "src/[local].css" "")) = "f872".toList := by
    decide +kernel
  have digestBegins : StandsFor "" origin (.placeholder short) "f872".toList :=
    @StandsFor.hash "" origin short (some "f872".toList) rfl (begins ▸ written _)
  have dropsAll : StandsFor "" origin (.placeholder empty) [] :=
    @StandsFor.contentHash "" origin empty (some []) rfl (.counted (by decide))
  have stand : List.Forall₂ (StandsFor "" origin) pieces texts :=
    .cons (.localName rfl) <| .cons (.literal _) <| .cons keepsUnknown <|
      .cons named <| .cons digestBegins <| .cons dropsAll .nil
  exact ⟨by decide, stand, (expansion_is_simultaneous "" origin).2 pieces texts stand⟩

end Template

end ScopedStyles
