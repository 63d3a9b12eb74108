import ScopedStyles.Text.Character

/-!
Templates of scoped names: text with placeholders such as `[local]`, `[hash:5]` or
`[hash:base64:5]`. A bracket that does not begin a placeholder is text.
-/

namespace ScopedStyles

open Text

inductive Subject where
  | localName
  | fileName
  | extension
  | folder
  | path
  | hash
  | contentHash
deriving DecidableEq, Repr

def Subject.words : List (List Char × Subject) :=
  [("local".toList, .localName), ("name".toList, .fileName), ("ext".toList, .extension),
   ("folder".toList, .folder), ("path".toList, .path), ("hash".toList, .hash),
   ("contenthash".toList, .contentHash)]

/-- A placeholder: its subject, the encoding and the length as spelled, and the whole spelling. -/
structure Placeholder where
  subject : Subject
  encoding : Option (List Char)
  length : Option (List Char)
  spelling : List Char
deriving DecidableEq, Repr

inductive TemplatePart where
  | text (character : Char)
  | placeholder (placeholder : Placeholder)
deriving DecidableEq, Repr

namespace Template

def isEncodingCharacter (character : Char) : Bool :=
  character.isLower || character.isDigit

/-- The end of a placeholder: encoding, length, and what follows the bracket. -/
abbrev Ending := Option (List Char) × Option (List Char) × List Char

def colonRun? (test : Char → Bool) : List Char → Option (List Char × List Char)
  | ':' :: text =>
    let run := text.takeWhile test
    if run.isEmpty then none else some (run, text.dropWhile test)
  | _ => none

def behindBracket? : List Char → Option (List Char)
  | ']' :: rest => some rest
  | _ => none

def readLength? (text : List Char) : Option (List Char × List Char) :=
  match colonRun? isDecimal text with
  | some (digits, behind) => (behindBracket? behind).map fun rest => (digits, rest)
  | none => none

def readEncoding? (text : List Char) : Option Ending :=
  match colonRun? isEncodingCharacter text with
  | none => none
  | some (encoding, behind) =>
    match readLength? behind with
    | some (length, rest) => some (some encoding, some length, rest)
    | none => (behindBracket? behind).map fun rest => (some encoding, none, rest)

/-- An ending: with an encoding if there can be one, else with a length, else bare. -/
def readEnding? (text : List Char) : Option Ending :=
  match readEncoding? text with
  | some ending => some ending
  | none =>
    match readLength? text with
    | some (length, rest) => some (none, some length, rest)
    | none => (behindBracket? text).map fun rest => (none, none, rest)

def behindWord? (word text : List Char) : Option (List Char) :=
  if word.isPrefixOf text then some (text.drop word.length) else none

def readSubject? (text : List Char) : Option (List Char × Subject × List Char) :=
  Subject.words.findSome? fun (word, subject) =>
    (behindWord? word text).map fun rest => (word, subject, rest)

def spelled (text rest : List Char) : List Char :=
  text.take (text.length - rest.length)

def readPlaceholder? (text : List Char) : Option (Placeholder × List Char) :=
  match readSubject? text with
  | none => none
  | some (_, subject, behind) =>
    (readEnding? behind).map fun (encoding, length, rest) =>
      (⟨subject, encoding, length, '[' :: spelled text rest⟩, rest)

/-! ## Reading -/

theorem length_behindBracket_lt {text rest : List Char} (found : behindBracket? text = some rest) :
    rest.length < text.length := by
  unfold behindBracket? at found
  split at found
  · cases found
    simp
  · cases found

theorem length_colonRun_le {test : Char → Bool} {text run rest : List Char}
    (found : colonRun? test text = some (run, rest)) : rest.length ≤ text.length := by
  unfold colonRun? at found
  split at found
  · rename_i tail
    dsimp only at found
    split at found
    · cases found
    · cases found
      exact Nat.le_succ_of_le (length_dropWhile_le test tail)
  · cases found

theorem length_readLength_lt {text digits rest : List Char}
    (found : readLength? text = some (digits, rest)) : rest.length < text.length := by
  unfold readLength? at found
  split at found
  · rename_i run behind equal
    obtain ⟨after, bracket, same⟩ := Option.map_eq_some_iff.mp found
    cases same
    exact Nat.lt_of_lt_of_le (length_behindBracket_lt bracket) (length_colonRun_le equal)
  · cases found

theorem length_readEncoding_lt {text : List Char} {ending : Ending}
    (found : readEncoding? text = some ending) : ending.2.2.length < text.length := by
  unfold readEncoding? at found
  split at found
  · cases found
  · rename_i encoding behind equal
    have behindLe := length_colonRun_le equal
    split at found
    · rename_i length rest equalLength
      cases found
      exact Nat.lt_of_lt_of_le (length_readLength_lt equalLength) behindLe
    · obtain ⟨after, bracket, same⟩ := Option.map_eq_some_iff.mp found
      cases same
      exact Nat.lt_of_lt_of_le (length_behindBracket_lt bracket) behindLe

theorem length_readEnding_lt {text : List Char} {ending : Ending}
    (found : readEnding? text = some ending) : ending.2.2.length < text.length := by
  unfold readEnding? at found
  split at found
  · rename_i equal
    cases found
    exact length_readEncoding_lt equal
  · split at found
    · rename_i length rest equal
      cases found
      exact length_readLength_lt equal
    · obtain ⟨after, bracket, same⟩ := Option.map_eq_some_iff.mp found
      cases same
      exact length_behindBracket_lt bracket

theorem length_readSubject_le {text word rest : List Char} {subject : Subject}
    (found : readSubject? text = some (word, subject, rest)) : rest.length ≤ text.length := by
  obtain ⟨entry, _, equal⟩ := List.exists_of_findSome?_eq_some found
  obtain ⟨after, behind, same⟩ := Option.map_eq_some_iff.mp equal
  cases same
  unfold behindWord? at behind
  split at behind
  · cases behind
    simp
  · cases behind

theorem length_readPlaceholder_lt {text rest : List Char} {placeholder : Placeholder}
    (found : readPlaceholder? text = some (placeholder, rest)) : rest.length < text.length := by
  unfold readPlaceholder? at found
  split at found
  · cases found
  · rename_i word subject behind equal
    obtain ⟨ending, endingFound, same⟩ := Option.map_eq_some_iff.mp found
    cases same
    exact Nat.lt_of_lt_of_le (length_readEnding_lt endingFound) (length_readSubject_le equal)

def read : List Char → List TemplatePart
  | [] => []
  | character :: rest =>
    if character = '[' then
      match _found : readPlaceholder? rest with
      | some (placeholder, behind) => .placeholder placeholder :: read behind
      | none => .text character :: read rest
    else .text character :: read rest
termination_by text => text.length
decreasing_by
  · exact Nat.lt_succ_of_lt (length_readPlaceholder_lt ‹_›)
  · exact Nat.lt_succ_self _
  · exact Nat.lt_succ_self _

end Template

end ScopedStyles
