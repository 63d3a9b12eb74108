import ScopedStyles.Proofs.Text.Trimming
import ScopedStyles.Text.FromClause

/-!
What reads as a `from` clause. The clause begins with white space, and its word, more white space
and a source follow; nothing but white space stands behind it. A text is cut at the first place
behind which it reads as a clause.
-/

namespace ScopedStyles.Text

variable {text word behind : List Char}

/-! ## White space and words -/

def IsGap (gap : List Char) : Prop :=
  gap ≠ [] ∧ ∀ character ∈ gap, isBlank character

theorem behindBlank?_eq_some_iff : behindBlank? text = some behind ↔
    ∃ gap, text = gap ++ behind ∧ IsGap gap ∧ StartsVisible behind := by
  cases text with
  | nil =>
    refine iff_of_false nofun ?_
    rintro ⟨gap, whole, ⟨proper, -⟩, -⟩
    exact proper (List.append_eq_nil_iff.mp whole.symm).1
  | cons first rest =>
    change (if isBlank first then some (rest.dropWhile isBlank) else none) = some behind ↔ _
    constructor
    · intro found
      split at found
      · rename_i blank
        cases found
        refine ⟨first :: rest.takeWhile isBlank, ?_, ⟨List.cons_ne_nil _ _, ?_⟩,
          startsVisible_dropWhile rest⟩
        · rw [List.cons_append, List.takeWhile_append_dropWhile]
        · rw [List.forall_mem_cons]
          exact ⟨blank, List.all_eq_true.mp List.all_takeWhile⟩
      · cases found
    · rintro ⟨gap, whole, ⟨proper, blank⟩, visible⟩
      cases gap with
      | nil => exact absurd rfl proper
      | cons other more =>
        rw [List.forall_mem_cons] at blank
        rw [List.cons_append, List.cons.injEq] at whole
        rw [whole.1, whole.2, if_pos blank.1, List.dropWhile_append_of_pos blank.2,
          visible.dropWhile_isBlank]

/-- A word stands between white space, and what follows it does not begin with white space. -/
theorem behindWord?_eq_some_iff (visible : StartsVisible word) (proper : word ≠ []) :
    behindWord? word text = some behind ↔
      ∃ before after, text = before ++ (word ++ (after ++ behind)) ∧ IsGap before ∧ IsGap after ∧
        StartsVisible behind := by
  unfold behindWord?
  constructor
  · intro found
    split at found
    · cases found
    · rename_i rest begins
      split at found
      · rename_i isPrefix
        rcases behindBlank?_eq_some_iff.mp begins with ⟨before, rfl, gapBefore, -⟩
        rcases List.isPrefixOf_iff_prefix.mp isPrefix with ⟨more, rfl⟩
        rw [List.drop_left] at found
        rcases behindBlank?_eq_some_iff.mp found with ⟨after, rfl, gapAfter, visible⟩
        exact ⟨before, after, rfl, gapBefore, gapAfter, visible⟩
      · cases found
  · rintro ⟨before, after, rfl, gapBefore, gapAfter, visibleBehind⟩
    have first : behindBlank? (before ++ (word ++ (after ++ behind))) =
        some (word ++ (after ++ behind)) :=
      behindBlank?_eq_some_iff.mpr ⟨before, rfl, gapBefore, visible.append proper _⟩
    have second : behindBlank? (after ++ behind) = some behind :=
      behindBlank?_eq_some_iff.mpr ⟨after, rfl, gapAfter, visibleBehind⟩
    have isPrefix : word.isPrefixOf (word ++ (after ++ behind)) :=
      List.isPrefixOf_iff_prefix.mpr (List.prefix_append _ _)
    rw [first]
    dsimp only
    rw [if_pos isPrefix, List.drop_left, second]

/-! ## Sources -/

theorem quotedSource?_eq_some_iff {path : List Char} : quotedSource? text = some path ↔
    ∃ quote trail, text = quote :: (path ++ quote :: trail) ∧ isQuote quote ∧ quote ∉ path ∧
      ∀ character ∈ trail, isBlank character := by
  cases text with
  | nil => simp [quotedSource?]
  | cons quote rest =>
    rw [quotedSource?]
    constructor
    · intro found
      split at found
      · rename_i quotes
        split at found
        · cases found
        · rename_i closing trail closes
          split at found
          · rename_i blank
            cases found
            have isClosing : closing = quote := by
              have first := List.head?_dropWhile_not (fun other => decide (other ≠ quote)) rest
              rw [closes] at first
              simpa using first
            refine ⟨quote, trail, ?_, quotes, ?_, List.all_eq_true.mp blank⟩
            · rw [← isClosing, ← closes, isClosing, List.takeWhile_append_dropWhile]
            · intro member
              simpa using List.all_eq_true.mp List.all_takeWhile quote member
          · cases found
      · cases found
    · rintro ⟨other, trail, whole, quotes, open_, blank⟩
      rw [List.cons.injEq] at whole
      rcases whole with ⟨rfl, rfl⟩
      have inside : ∀ character ∈ path, decide (character ≠ quote) := by
        intro character member
        rw [decide_eq_true_eq]
        rintro rfl
        exact open_ member
      rw [if_pos quotes, List.dropWhile_append_of_pos inside, List.takeWhile_append_of_pos inside]
      simpa using blank

theorem bareSource?_eq_some_iff {test : Char → Bool} {run : List Char}
    (visible : ∀ character, isBlank character → ¬ test character) :
    bareSource? test text = some run ↔
      ∃ trail, text = run ++ trail ∧ run ≠ [] ∧ (∀ character ∈ run, test character) ∧
        ∀ character ∈ trail, isBlank character := by
  unfold bareSource?
  constructor
  · intro found
    simp only [Option.ite_none_right_eq_some, Option.some.injEq, Bool.and_eq_true,
      Bool.not_eq_true', List.isEmpty_eq_false_iff] at found
    rcases found with ⟨⟨proper, blank⟩, rfl⟩
    exact ⟨text.dropWhile test, List.takeWhile_append_dropWhile.symm, proper,
      List.all_eq_true.mp List.all_takeWhile, List.all_eq_true.mp blank⟩
  · rintro ⟨trail, rfl, proper, passes, blank⟩
    have stops : trail.takeWhile test = [] ∧ trail.dropWhile test = trail := by
      cases trail with
      | nil => exact ⟨rfl, rfl⟩
      | cons first rest =>
        have fails := visible first (blank first List.mem_cons_self)
        exact ⟨List.takeWhile_cons_of_neg fails, List.dropWhile_cons_of_neg fails⟩
    rw [List.takeWhile_append_of_pos passes, List.dropWhile_append_of_pos passes, stops.1, stops.2,
      List.append_nil]
    simpa [proper] using blank

/-! ## The cut -/

variable {α : Type} {source? : List Char → Option α} {list : List Char} {value : α}

/-- The source of the clause that a text is. -/
def fromClause? (source? : List Char → Option α) (text : List Char) : Option α :=
  (behindWord? ['f', 'r', 'o', 'm'] text).bind source?

theorem cutFrom?_cons (source? : List Char → Option α) (character : Char) (rest : List Char) :
    cutFrom? source? (character :: rest) =
      match fromClause? source? rest with
      | some value => some ([character], value)
      | none => (cutFrom? source? rest).map fun (list, value) => (character :: list, value) :=
  rfl

/-- A text is cut at the first place, other than its beginning, behind which it is a clause. -/
theorem cutFrom?_eq_some_iff : cutFrom? source? text = some (list, value) ↔
    ∃ clause, text = list ++ clause ∧ list ≠ [] ∧ fromClause? source? clause = some value ∧
      ∀ front back, list = front ++ back → front ≠ [] → back ≠ [] →
        fromClause? source? (back ++ clause) = none := by
  induction text generalizing list with
  | nil =>
    refine iff_of_false nofun ?_
    rintro ⟨clause, whole, proper, -⟩
    exact proper (List.append_eq_nil_iff.mp whole.symm).1
  | cons character rest induction =>
    rw [cutFrom?_cons]
    constructor
    · intro found
      split at found
      · rename_i reads
        cases found
        refine ⟨rest, rfl, List.cons_ne_nil _ _, reads, fun front back split proper more => ?_⟩
        have lengths := congrArg List.length split
        have front_pos := List.length_pos_iff.mpr proper
        have back_pos := List.length_pos_iff.mpr more
        simp at lengths
        omega
      · rename_i noClause
        rcases Option.map_eq_some_iff.mp found with ⟨⟨others, other⟩, cut, same⟩
        cases same
        rcases induction.mp cut with ⟨clause, rfl, proper, reads, earlier⟩
        refine ⟨clause, rfl, List.cons_ne_nil _ _, reads, fun front back split nonempty more => ?_⟩
        cases front with
        | nil => exact absurd rfl nonempty
        | cons first front =>
          cases split
          by_cases last : front = []
          · rw [last] at noClause
            exact noClause
          · exact earlier front back rfl last more
    · rintro ⟨clause, whole, proper, reads, earlier⟩
      cases list with
      | nil => exact absurd rfl proper
      | cons first others =>
        rw [List.cons_append, List.cons.injEq] at whole
        rcases whole with ⟨rfl, rfl⟩
        by_cases last : others = []
        · rw [last, List.nil_append, reads]
        · have noClause := earlier [character] others rfl (List.cons_ne_nil _ _) last
          rw [noClause]
          refine Option.map_eq_some_iff.mpr ⟨(others, value), induction.mpr ?_, rfl⟩
          refine ⟨clause, rfl, last, reads, fun front back split _ more => ?_⟩
          exact earlier (character :: front) back (by rw [split]; rfl) (List.cons_ne_nil _ _) more

theorem cutFrom?_eq_none_iff : cutFrom? source? text = none ↔
    ∀ front back, text = front ++ back → front ≠ [] → fromClause? source? back = none := by
  induction text with
  | nil =>
    refine iff_of_true rfl fun front back split proper => ?_
    exact absurd (List.append_eq_nil_iff.mp split.symm).1 proper
  | cons character rest induction =>
    rw [cutFrom?_cons]
    constructor
    · intro nowhere front back split proper
      split at nowhere
      · cases nowhere
      · rename_i noClause
        cases front with
        | nil => exact absurd rfl proper
        | cons first front =>
          cases split
          by_cases last : front = []
          · rw [last] at noClause
            exact noClause
          · exact induction.mp (Option.map_eq_none_iff.mp nowhere) front back rfl last
    · intro nowhere
      rw [nowhere [character] rest rfl (List.cons_ne_nil _ _)]
      refine Option.map_eq_none_iff.mpr (induction.mpr fun front back split _ => ?_)
      exact nowhere (character :: front) back (by rw [split]; rfl) (List.cons_ne_nil _ _)

end ScopedStyles.Text
