import ScopedStyles.Proofs.Text.Trimming
import ScopedStyles.Selector.Annotation

/-!
Selectors that are printed as they stand. A selector without classes, ids, wrappers, switches and
pseudo-classes that take selectors is copied; so a rule that is printed as `:export` was written
with a wrapper or a switch, unless it was written as `:export`.
-/

namespace ScopedStyles

open Text

namespace Selector

namespace Piece

def isScope : Piece → Bool
  | .switch _ | .wrapper .. => true
  | _ => false

def isVerbatim : Piece → Bool
  | .verbatim _ => true
  | _ => false

def copied : Piece → List Char
  | .verbatim text => text
  | _ => []

theorem behind_of_verbatim {first : Piece} {rest : List Piece}
    (all : (first :: rest).all isVerbatim) : first.isVerbatim ∧ rest.all isVerbatim := by
  simpa using all

end Piece

open Piece in
theorem flatMap_copied {text : List Char} (all : (Piece.read text).all isVerbatim) :
    (Piece.read text).flatMap copied = text := by
  fun_induction Piece.read text with
  | case1 => rfl
  | case2 rest induction =>
    rw [List.flatMap_cons, induction (behind_of_verbatim all).2, copied, List.cons_append,
      List.take_append_drop]
  | case3 character rest _ _ span induction =>
    rw [List.flatMap_cons, induction (behind_of_verbatim all).2, copied, List.cons_append,
      spanShield_append]
  | case4 => cases (behind_of_verbatim all).1
  | case5 character rest _ _ _ element name arguments induction =>
    obtain ⟨rfl, isColon⟩ : character = ':' ∧ rest.head? = some ':' := by simpa using element
    obtain ⟨rest, rfl⟩ := List.head?_eq_some_iff.mp isColon
    rw [List.flatMap_cons, induction (behind_of_verbatim all).2, copied, List.append_assoc,
      List.append_assoc, spanArguments_append, spanName_append]
    rfl
  | case6 => cases (behind_of_verbatim all).1
  | case7 => cases (behind_of_verbatim all).1
  | case8 => cases (behind_of_verbatim all).1
  | case9 rest name arguments _ _ _ _ _ _ induction =>
    rw [List.flatMap_cons, induction (behind_of_verbatim all).2, pseudo, copied, List.append_assoc,
      spanArguments_append, List.cons_append, spanName_append]
  | case10 character rest _ _ _ _ _ induction =>
    rw [List.flatMap_cons, induction (behind_of_verbatim all).2, copied]
    rfl

/-- The characters of segments once they are printed. -/
def printed (rename : String → String) (segments : List Segment) : List Char :=
  segments.flatMap fun segment => (segment.render rename).toList

theorem printed_append (rename : String → String) (first second : List Segment) :
    printed rename (first ++ second) = printed rename first ++ printed rename second :=
  List.flatMap_append ..

theorem printed_textSegments (rename : String → String) (text : List Char) :
    printed rename (textSegments text) = text := by
  unfold textSegments
  split
  · rename_i isEmpty
    rw [List.isEmpty_iff.mp isEmpty]
    rfl
  · simp [printed, Segment.render]

/-- What is printed of a class, an id or a pseudo-class that takes selectors and of nothing else. -/
def signs : List Char := ['.', '#', '(']

/-- Without wrappers and switches, either pieces are copied or one of the signs is printed. -/
theorem copied_or_sign (rename : String → String) {mode : Mode} {inWrapper : Bool}
    {text : List Char} {pieces : List Piece} {segments : List Segment}
    (annotated : annotatePieces mode inWrapper text pieces = some segments)
    (noScope : ∀ piece ∈ pieces, ¬ piece.isScope) :
    pieces.all Piece.isVerbatim ∧
        printed rename segments = text ++ pieces.flatMap Piece.copied ∨
      ∃ sign ∈ signs, sign ∈ printed rename segments := by
  -- `text` is what has been copied so far; the first piece that is not copied prints its sign.
  induction pieces generalizing mode text segments with
  | nil =>
    rw [annotatePieces] at annotated
    obtain rfl := Option.some.inj annotated
    exact .inl ⟨rfl, by rw [printed_textSegments, List.flatMap_nil, List.append_nil]⟩
  | cons piece rest induction =>
    obtain ⟨noScopeFirst, noScopeRest⟩ := List.forall_mem_cons.mp noScope
    rw [annotatePieces] at annotated
    cases first : annotatePiece mode inWrapper text piece with
    | none => simp [first] at annotated
    | some answer =>
      obtain ⟨own, carried, later⟩ := answer
      rw [first] at annotated
      obtain ⟨others, behind, rfl⟩ := Option.map_eq_some_iff.mp annotated
      rw [printed_append]
      cases piece with
      | verbatim copied =>
        cases first
        rcases induction behind noScopeRest with ⟨all, prints⟩ | ⟨sign, isSign, member⟩
        · refine .inl ⟨by rw [List.all_cons, all]; rfl, ?_⟩
          rw [prints, List.flatMap_cons, List.append_assoc]
          rfl
        · exact .inr ⟨sign, isSign, List.mem_append_right _ member⟩
      | name sigil spelling =>
        cases first
        refine .inr ⟨sigil.character, by cases sigil <;> decide, List.mem_append_left _ ?_⟩
        rw [printed_append, nameSegment]
        refine List.mem_append_right _ ?_
        simp [printed, Segment.render]
      | switch => exact absurd rfl noScopeFirst
      | wrapper => exact absurd rfl noScopeFirst
      | functional name arguments =>
        obtain ⟨inside, _, answer⟩ := Option.map_eq_some_iff.mp first
        cases answer
        refine .inr ⟨'(', by decide, List.mem_append_left _ ?_⟩
        rw [printed_append, printed_textSegments]
        simp

end Selector

/-! ## Selector lists -/

/-- Whether a selector list has a wrapper or a switch outside the arguments of pseudo-classes. -/
def usesScopes (selector : String) : Bool :=
  (commaItems selector.toList).any fun item => (Selector.Piece.read item).any Selector.Piece.isScope

theorem eq_of_cutCommas {state : CutState} {text item : List Char}
    (single : cutCommas state text = [item]) : item = text := by
  induction text generalizing state item with
  | nil => exact (List.singleton_inj.mp single).symm
  | cons character rest induction =>
    rw [cutCommas] at single
    split at single
    · exact absurd (List.cons.inj single).2 (cutCommas_ne_nil state rest)
    · split at single
      · rename_i nothing
        exact absurd nothing (cutCommas_ne_nil _ _)
      · rename_i first items cut
        obtain ⟨rfl, rfl⟩ := List.cons.inj single
        rw [induction cut]

theorem toList_render (rename : String → String) (selector : AnnotatedSelector) :
    (selector.render rename).toList =
      trimCharacters (Selector.printed rename selector.segments) := by
  rw [AnnotatedSelector.render, toList_trim, String.toList_join, List.flatMap_map]
  rfl

/-- One selector that is printed as `:export` was written so, or with a wrapper or a switch. -/
theorem isScope_of_export {rename : String → String} {item : List Char} {mode : Mode}
    {inWrapper : Bool} {segments : List Selector.Segment}
    (annotated : Selector.annotatePieces mode inWrapper [] (Selector.Piece.read item) =
      some segments)
    (prints : trimCharacters (Selector.printed rename segments) = ":export".toList)
    (other : trimCharacters item ≠ ":export".toList) :
    (Selector.Piece.read item).any Selector.Piece.isScope := by
  refine Decidable.byContradiction fun noScope => ?_
  have noScope : ∀ piece ∈ Selector.Piece.read item, ¬ piece.isScope := fun piece member isScope =>
    noScope (List.any_eq_true.mpr ⟨piece, member, isScope⟩)
  rcases Selector.copied_or_sign rename annotated noScope with
    ⟨all, copied⟩ | ⟨sign, isSign, member⟩
  · rw [copied, List.nil_append, Selector.flatMap_copied all] at prints
    exact other prints
  · have other : ¬ isBlank sign ∧ sign ∉ ":export".toList := by
      simp only [Selector.signs, List.mem_cons, List.not_mem_nil, or_false] at isSign
      rcases isSign with rfl | rfl | rfl <;> decide
    have printed := mem_trimCharacters member other.1
    rw [prints] at printed
    exact other.2 printed

/-- A list that is printed as `:export` was written so, or with a wrapper or a switch. -/
theorem usesScopes_of_export {rename : String → String} {selector : String} {mode : Mode}
    {selectors : List AnnotatedSelector}
    (annotated : annotateSelectors selector mode = .ok selectors)
    (prints : renderSelectors rename selectors = ":export") (other : trim selector ≠ ":export") :
    usesScopes selector := by
  unfold annotateSelectors at annotated
  dsimp only at annotated
  split at annotated
  case h_2 => cases annotated
  rename_i lists annotates
  obtain rfl : lists.map AnnotatedSelector.mk = selectors := by
    cases annotated
    rfl
  have spelled := congrArg String.toList prints
  rw [renderSelectors, String.toList_intercalate] at spelled
  unfold usesScopes
  cases items : commaItems selector.toList with
  | nil => exact absurd items (cutCommas_ne_nil _ _)
  | cons item rest =>
    rw [items, List.mapM_cons] at annotates
    obtain ⟨segments, first, behind⟩ := Option.bind_eq_some_iff.mp annotates
    obtain ⟨others, annotatesRest, same⟩ := Option.bind_eq_some_iff.mp behind
    obtain rfl : segments :: others = lists := Option.some.inj same
    cases rest with
    | nil =>
      obtain rfl : [] = others := Option.some.inj annotatesRest
      obtain rfl := eq_of_cutCommas items
      have single : trimCharacters (Selector.printed rename segments) = ":export".toList := by
        rw [← toList_render rename ⟨segments⟩, ← spelled]
        simp
      have noExport : trimCharacters selector.toList ≠ ":export".toList := fun equal =>
        other (String.toList_inj.mp (by rw [toList_trim, equal]))
      simpa using isScope_of_export first single noExport
    | cons second more =>
      -- Two selectors are printed with a comma between them.
      rw [List.mapM_cons] at annotatesRest
      obtain ⟨_, _, behind⟩ := Option.bind_eq_some_iff.mp annotatesRest
      obtain ⟨_, _, same⟩ := Option.bind_eq_some_iff.mp behind
      obtain rfl := Option.some.inj same
      have comma : ',' ∈ ":export".toList := by
        rw [← spelled]
        simp
      exact absurd comma (by decide)

end ScopedStyles
