import ScopedStyles.Proofs.Identifier.Spelling

/-!
Names in context. The spelling of a name begins like a name, ends where nothing behind it goes on
with one, and is decoded to the name that was spelled.
-/

namespace ScopedStyles

open Text

namespace Identifier

/-- Whether nothing at the beginning of a text goes on with a name. -/
def endsName (following : List Char) : Bool :=
  following.head?.all fun first => first != '\\' && !isCharacter first

theorem spanName_of_endsName {following : List Char} (ends : endsName following) :
    Selector.spanName following = ([], following) := by
  cases following with
  | nil => rw [Selector.spanName]
  | cons first rest =>
    have stops : first ≠ '\\' ∧ isCharacter first = false := by simpa [endsName] using ends
    rw [Selector.spanName, if_neg stops.1, stops.2]
    rfl

/-- Character by character: each spelling is read whole, whatever stands behind it. -/
theorem spanName_flatMap_append (name : List Char) (position : Nat) (afterDash lone : Bool)
    (following : List Char) :
    let spelling := (name.zipIdx position).flatMap fun (character, position) =>
      encodeCharacter position afterDash lone character
    Selector.spanName (spelling ++ following) =
      (spelling ++ (Selector.spanName following).1, (Selector.spanName following).2) := by
  induction name generalizing position with
  | nil => rfl
  | cons character rest induction =>
    have spells := spells_encodeCharacter character position afterDash lone
    dsimp only at induction ⊢
    rw [List.zipIdx_cons, List.flatMap_cons, List.append_assoc, spells.spanName_append,
      induction (position + 1), List.append_assoc]

/-- A name that has been spelled is read to its end and no further. -/
theorem spanName_encode_append (name : List Char) {following : List Char}
    (ends : endsName following) :
    Selector.spanName (encode name ++ following) = (encode name, following) := by
  rw [encode, spanName_flatMap_append name 0, spanName_of_endsName ends, List.append_nil]

end Identifier

/-- Whatever its name and whatever ends it, a spelled name is read as itself, and decoding it gives
the name; only a character that cannot be written comes back as another one. -/
theorem spelling_is_exact (name : String) :
    (name ≠ "" → '\x00' ∉ name.toList → ∀ following : List Char,
      Identifier.endsName following →
        (escapeIdentifier name).toList.head?.any Selector.startsName ∧
          Selector.spanName ((escapeIdentifier name).toList ++ following) =
            ((escapeIdentifier name).toList, following) ∧
          unescapeIdentifier (String.ofList
            (Selector.spanName ((escapeIdentifier name).toList ++ following)).1) = name) ∧
      unescapeIdentifier (escapeIdentifier name) =
        name.map fun character =>
          if character = '\x00' then Identifier.replacement else character := by
  have spelled : (escapeIdentifier name).toList = Identifier.encode name.toList := by
    rw [escapeIdentifier, String.toList_ofList]
  have decoded : unescapeIdentifier (escapeIdentifier name) =
      String.ofList (Identifier.writable name.toList) := by
    rw [unescapeIdentifier, spelled, (Identifier.spells_encode name.toList).decode_eq]
  refine ⟨fun named noNul following ends => ?_, ?_⟩
  · have whole := Identifier.spanName_encode_append name.toList ends
    have nonempty : name.toList ≠ [] := by simpa using named
    obtain ⟨first, rest, encoded, starts⟩ := Identifier.exists_startsName_encode nonempty
    rw [spelled, whole]
    refine ⟨by rw [encoded]; exact starts, rfl, ?_⟩
    rw [← spelled, String.ofList_toList, decoded, Identifier.writable_eq_self noNul,
      String.ofList_toList]
  · rw [decoded]
    exact String.toList_inj.mp (by simp [Identifier.writable])

/-- A dash before a digit, white space, a control character and punctuation, before a combinator. -/
theorem dashed_spelling_is_exact :
    "-1 é\n:b" ≠ "" ∧ '\x00' ∉ "-1 é\n:b".toList ∧ Identifier.endsName " > .a".toList ∧
      escapeIdentifier "-1 é\n:b" = "-\\31 \\ é\\a \\:b" ∧
      Selector.spanName ("-\\31 \\ é\\a \\:b".toList ++ " > .a".toList) =
        ("-\\31 \\ é\\a \\:b".toList, " > .a".toList) ∧
      unescapeIdentifier "-\\31 \\ é\\a \\:b" = "-1 é\n:b" := by
  have named : "-1 é\n:b" ≠ "" := by decide
  have noNul : '\x00' ∉ "-1 é\n:b".toList := by decide
  have ends : Identifier.endsName " > .a".toList := by decide
  have spelled : escapeIdentifier "-1 é\n:b" = "-\\31 \\ é\\a \\:b" := by decide
  obtain ⟨-, read, decoded⟩ := (spelling_is_exact "-1 é\n:b").1 named noNul " > .a".toList ends
  rw [read, spelled, String.ofList_toList] at decoded
  rw [spelled] at read
  exact ⟨named, noNul, ends, spelled, read, decoded⟩

end ScopedStyles
