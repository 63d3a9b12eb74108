import ScopedStyles.Proofs.Identifier.Mentions

/-!
Addresses in values. An address is one piece, in which nothing is renamed, and it ends at its first
closing parenthesis. This is so in quotes as well: a quoted address is opaque as long as it holds no
closing parenthesis, and what stands behind it is then renamed as if it stood alone.
-/

namespace ScopedStyles

open Text

variable {rename : String → Option String}

/-- An address at the beginning of a value is one piece, up to its first closing parenthesis. -/
theorem read_address {inside : String} (opened : ')' ∉ inside.toList) (rest : String) :
    Mention.read ("url(" ++ inside ++ ")" ++ rest) =
      .other ("url(" ++ inside ++ ")").toList :: Mention.read rest := by
  have isWord : Mention.IsWord "url".toList := ⟨by decide, List.all_eq_true.mp (by decide)⟩
  have pieces : Mention.readAfter none
        ("url".toList ++ '(' :: inside.toList ++ [')'] ++ rest.toList) =
      .other ("url".toList ++ '(' :: inside.toList ++ [')']) ::
        Mention.readAfter none rest.toList :=
    Mention.readAfter_address isWord (by decide) opened
  simpa [Mention.read] using pieces

theorem renameMentions_address {inside : String} (opened : ')' ∉ inside.toList) (rest : String) :
    renameMentions rename ("url(" ++ inside ++ ")" ++ rest) =
        "url(" ++ inside ++ ")" ++ renameMentions rename rest ∧
      mentionedNames ("url(" ++ inside ++ ")" ++ rest) = mentionedNames rest := by
  constructor
  · rw [renameMentions, read_address opened, List.flatMap_cons, Mention.renamed,
      String.ofList_append, String.ofList_toList, renameMentions]
  · rw [mentionedNames, read_address opened, List.filterMap_cons, mentionedNames]

/-- A quoted address without closing parentheses is opaque, and what stands behind it is renamed as
if it stood alone. One with a closing parenthesis is opaque up to the first of them; behind that,
the rest of the address and its closing quote are renamed together with what follows. -/
theorem quoted_address_ends_at_parenthesis (rename : String → Option String) (rest : String) :
    (∀ address : String, ')' ∉ address.toList →
      renameMentions rename ("url(\"" ++ address ++ "\")" ++ rest) =
          "url(\"" ++ address ++ "\")" ++ renameMentions rename rest ∧
        mentionedNames ("url(\"" ++ address ++ "\")" ++ rest) = mentionedNames rest) ∧
      ∀ front back : String, ')' ∉ front.toList →
        renameMentions rename ("url(\"" ++ (front ++ ")" ++ back) ++ "\")" ++ rest) =
            "url(\"" ++ front ++ ")" ++ renameMentions rename (back ++ "\")" ++ rest) ∧
          mentionedNames ("url(\"" ++ (front ++ ")" ++ back) ++ "\")" ++ rest) =
            mentionedNames (back ++ "\")" ++ rest) := by
  constructor
  · intro address opened
    have quoted : ')' ∉ ("\"" ++ address ++ "\"").toList := by
      simpa using opened
    have spelled : "url(\"" ++ address ++ "\")" = "url(" ++ ("\"" ++ address ++ "\"") ++ ")" :=
      String.toList_inj.mp (by simp)
    rw [spelled]
    exact renameMentions_address quoted rest
  · intro front back opened
    have quoted : ')' ∉ ("\"" ++ front).toList := by
      simpa using opened
    have spelled : "url(\"" ++ front ++ ")" = "url(" ++ ("\"" ++ front) ++ ")" :=
      String.toList_inj.mp (by simp)
    have whole : "url(\"" ++ (front ++ ")" ++ back) ++ "\")" ++ rest =
        "url(" ++ ("\"" ++ front) ++ ")" ++ (back ++ "\")" ++ rest) :=
      String.toList_inj.mp (by simp)
    rw [spelled, whole]
    exact renameMentions_address quoted (back ++ "\")" ++ rest)

/-- An address with a space and an opening parenthesis in it. -/
theorem spaced_address_is_unchanged :
    ')' ∉ "a (b".toList ∧ ')' ∉ "a".toList ∧
      renameMentions (fun _ => some "x") "url(\"a (b\") b" = "url(\"a (b\") x" ∧
      renameMentions (fun _ => some "x") "url(\"a)b\") b" = "url(\"a)x\") b" := by
  have renames := quoted_address_ends_at_parenthesis (fun _ => some "x") " b"
  refine ⟨by decide, by decide, ?_, ?_⟩
  · exact (renames.1 "a (b" (by decide)).1.trans (by decide +kernel)
  · exact (renames.2 "a" "b" (by decide)).1.trans (by decide +kernel)

/-- The address `a)b` ends at its parenthesis, although it stands in quotes. -/
theorem parenthesis_ends_quoted_address :
    ¬ ∀ (rename : String → Option String) (address rest : String),
      (∀ character ∈ address.toList, ¬ isQuote character ∧ character ≠ '\\') →
      renameMentions rename ("url(\"" ++ address ++ "\")" ++ rest) =
        "url(\"" ++ address ++ "\")" ++ renameMentions rename rest := by
  intro claim
  have unchanged := claim (fun _ => some "x") "a)b" " c" (by simp [isQuote])
  exact absurd unchanged (by decide +kernel)

end ScopedStyles
