import ScopedStyles.Proofs.Selector.Standing

/-!
Items of a list, and where reading stands in them. A list that is cut at its commas has items that
end outside everything, and a list that is put together from such items is cut into them again.
-/

namespace ScopedStyles.Selector

open Text

namespace Standing

section

variable {standing behind final : Standing} {text rest item : List Char} {character : Char}
  {slack : Nat}

/-! ## The reader that cuts -/

theorem cut_next (steps : standing.step character = some behind) :
    standing.cut.next character = behind.cut := by
  obtain ⟨awaits, sameShield⟩ := closers_of_step steps
  have sameEscaped := standing.shield.escaped_next character
  obtain ⟨closers, depth, shield⟩ := standing
  obtain ⟨closersBehind, depthBehind, shieldBehind⟩ := behind
  dsimp only at awaits sameShield sameEscaped
  subst sameShield
  unfold cut CutState.next
  dsimp only
  rw [sameEscaped]
  by_cases isEscaped : shield.escaped
  · obtain rfl : closers = closersBehind := by simpa [Shield.takesAny, isEscaped] using awaits
    simp [isEscaped, Shield.next, Shield.quote]
  by_cases isBackslash : character = '\\'
  · subst isBackslash
    obtain rfl : closers = closersBehind := by simpa [awaited] using awaits
    simp [isEscaped, Shield.next, Shield.quote]
  rw [Shield.quote_next (by simpa using isEscaped) isBackslash]
  cases inString : shield.quote with
  | some quote =>
    obtain rfl : closers = closersBehind := by simpa [Shield.takesAny, inString] using awaits
    rw [if_neg isEscaped, if_neg isBackslash]
    dsimp only
    split <;> simp [isEscaped, isBackslash]
  | none =>
    have awaits : awaited closers character = some closersBehind := by
      simpa [Shield.takesAny, inString, isEscaped] using awaits
    rcases awaited_eq_some awaits with ⟨rfl, rfl⟩ | ⟨rfl, rfl⟩ | ⟨rfl | rfl, rfl⟩ | ⟨other, rfl⟩
    · simp [isEscaped, isQuote]
    · simp [isEscaped, isQuote]
    · simp [isEscaped, isQuote]
    · simp [isEscaped, isQuote]
    · simp only [List.mem_cons, List.not_mem_nil, or_false, not_or] at other
      by_cases quotes : isQuote character <;> simp [isEscaped, isBackslash, quotes, other]

theorem cutCommas_append {first : List Char} {others : List (List Char)}
    (runs : standing.runWithin text = some final)
    (cuts : cutCommas final.cut rest = first :: others) :
    cutCommas standing.cut (text ++ rest) = (text ++ first) :: others := by
  induction text generalizing standing with
  | nil =>
    obtain rfl : standing = final := Option.some.inj runs
    exact cuts
  | cons character text induction =>
    obtain ⟨behind, steps, runs⟩ := Option.bind_eq_some_iff.mp runs
    unfold stepWithin at steps
    split at steps
    · cases steps
    · rename_i noCut
      rw [List.cons_append, cutCommas, if_neg (by simpa using noCut), cut_next steps,
        induction runs]
      rfl

/-! ## Items -/

/-- A text cut at its commas: every item but the last ends outside everything. -/
inductive Items (final : Standing) : Standing → List Char → List (List Char) → Prop
  | last {standing : Standing} {item : List Char}
    (runs : standing.runWithin item = some final) : Items final standing item [item]
  | more {standing : Standing} {item text : List Char} {items : List (List Char)} {depth : Nat}
    (runs : standing.runWithin item = some (bare [] depth))
    (behind : Items final (bare [] depth) text items) :
    Items final standing (item ++ ',' :: text) (item :: items)

/-- Where a comma separates, nothing is open: the end of a bracket would be awaited. -/
theorem eq_bare_of_separates (covered : standing.Covered slack)
    (separates : standing.cut.separates) : standing = bare [] standing.depth := by
  obtain ⟨closers, depth, guard, escaped⟩ := standing
  obtain ⟨⟨rfl, noQuote⟩, nothing⟩ :
      (escaped = false ∧ Shield.quote ⟨guard, escaped⟩ = none) ∧ closers = [] := by
    simpa [cut, CutState.separates] using separates
  subst nothing
  rcases guard with _ | quote | _ | quote
  · rfl
  · cases noQuote
  · obtain ⟨inner, outer, whole, _⟩ := covered
    exact absurd whole (by simp)
  · cases noQuote

theorem items_cutCommas (covered : standing.Covered slack)
    (runs : standing.run text = some final) :
    Items final standing text (cutCommas standing.cut text) := by
  induction text generalizing standing with
  | nil => exact .last runs
  | cons character text induction =>
    obtain ⟨behind, steps, runs⟩ := Option.bind_eq_some_iff.mp runs
    have items := induction (covered.step steps) runs
    rw [cutCommas]
    by_cases separates : character = ',' ∧ standing.cut.separates
    · have atComma := eq_bare_of_separates covered separates.2
      rw [separates.1, atComma] at steps
      obtain rfl : bare [] standing.depth = behind := Option.some.inj steps
      rw [if_pos (by simpa using separates), separates.1]
      rw [← atComma] at items
      have nothing : standing.runWithin [] = some (bare [] standing.depth) := congrArg some atComma
      exact .more nothing (atComma ▸ items)
    · rw [if_neg (by simpa using separates), cut_next steps]
      have stepsWithin : standing.stepWithin character = some behind :=
        (if_neg separates).trans steps
      generalize cutCommas behind.cut text = cutItems at items ⊢
      cases items with
      | last item => exact .last (Option.bind_eq_some_iff.mpr ⟨behind, stepsWithin, item⟩)
      | @more _ item text items depth runsItem behindComma =>
        have runsAll : standing.runWithin (character :: item) = some (bare [] depth) :=
          Option.bind_eq_some_iff.mpr ⟨behind, stepsWithin, runsItem⟩
        exact .more runsAll behindComma

theorem cutCommas_of_items {items : List (List Char)} (cuts : Items final standing text items) :
    cutCommas standing.cut text = items := by
  induction cuts with
  | @last standing item runs =>
    have single : cutCommas standing.cut (item ++ []) = [item ++ []] := cutCommas_append runs rfl
    rwa [List.append_nil] at single
  | @more standing item text items depth runs behind induction =>
    have separates : cutCommas (bare [] depth).cut (',' :: text) =
        [] :: cutCommas (bare [] depth).cut text := rfl
    rw [cutCommas_append runs separates, induction, List.append_nil]

theorem run_of_items {items : List (List Char)} (cuts : Items final standing text items) :
    standing.run text = some final := by
  induction cuts with
  | last runs => exact run_of_runWithin runs
  | @more standing item text items depth runs behind induction =>
    rw [run_append, run_of_runWithin runs]
    exact induction

/-- Reading goes through every item, and none ends in a backslash but, perhaps, the last one. -/
theorem exists_run_of_mem {items : List (List Char)} (cuts : Items final standing text items)
    (atStart : ∃ depth, standing = bare [] depth) (closed : final.IsClosed)
    (member : item ∈ items) :
    ∃ depth last, (bare [] depth).runWithin item = some last ∧ last.IsClosed ∧
      (last.shield.escaped → final.shield.escaped) := by
  induction cuts with
  | @last standing other runs =>
    obtain ⟨depth, rfl⟩ := atStart
    obtain rfl := List.mem_singleton.mp member
    exact ⟨depth, final, runs, closed, id⟩
  | @more standing other text items depthBehind runs behind induction =>
    obtain ⟨depth, rfl⟩ := atStart
    rcases List.mem_cons.mp member with rfl | member
    · exact ⟨depth, _, runs, ⟨rfl, .inr rfl⟩, fun holds => absurd holds Bool.false_ne_true⟩
    · exact induction ⟨depthBehind, rfl⟩ member

/-! ## Items in place of items -/

/-- The same standing, but for a backslash at the end. -/
structure Resembles (final other : Standing) : Prop where
  closers : other.closers = final.closers
  depth : other.depth = final.depth
  guard : other.shield.guard = final.shield.guard

theorem Resembles.isClosed (resembles : Resembles final behind) (closed : final.IsClosed) :
    behind.IsClosed :=
  ⟨resembles.guard.trans closed.1, by rw [resembles.depth, resembles.closers]; exact closed.2⟩

theorem Resembles.trans {other : Standing} (first : Resembles final behind)
    (second : Resembles behind other) : Resembles final other :=
  ⟨second.closers.trans first.closers, second.depth.trans first.depth,
    second.guard.trans first.guard⟩

/-- The same standing, but for a backslash at the end that may be gone. -/
structure Relaxes (final relaxed : Standing) : Prop extends Resembles final relaxed where
  escaped : relaxed.shield.escaped → final.shield.escaped

theorem Relaxes.refl (final : Standing) : Relaxes final final :=
  ⟨⟨rfl, rfl, rfl⟩, id⟩

theorem relaxes_bare (closers : List Char) (depth : Nat) :
    Relaxes ⟨closers, depth, none, true⟩ (bare closers depth) :=
  ⟨⟨rfl, rfl, rfl⟩, nofun⟩

theorem Relaxes.eq_of_unescaped (relaxes : Relaxes final behind)
    (unescaped : final.shield.escaped = false) : behind = final := by
  obtain ⟨closers, depth, guard, escaped⟩ := final
  obtain ⟨closersBehind, depthBehind, guardBehind, escapedBehind⟩ := behind
  obtain ⟨⟨rfl, rfl, rfl⟩, fewer⟩ := relaxes
  obtain rfl : escaped = false := unescaped
  obtain rfl : escapedBehind = false := Bool.eq_false_iff.mpr fun holds =>
    absurd (fewer holds) Bool.false_ne_true
  rfl

/-- A text may stand for a selector of a list: reading it goes where reading the selector does. -/
def StandsFor (text item : List Char) : Prop :=
  ∀ (depth : Nat) (final : Standing), (bare [] depth).runWithin item = some final →
    final.IsClosed → ∃ relaxed, (bare [] depth).runWithin text = some relaxed ∧
      Relaxes final relaxed

theorem Items.map {items : List (List Char)} (textOf : List Char → List Char)
    (cuts : Items final standing text items) (atStart : ∃ depth, standing = bare [] depth)
    (closed : final.IsClosed) (stands : ∀ item ∈ items, StandsFor (textOf item) item) :
    ∃ relaxed, Relaxes final relaxed ∧
      Items relaxed standing ([','].intercalate (items.map textOf)) (items.map textOf) := by
  induction cuts with
  | @last standing item runs =>
    obtain ⟨depth, rfl⟩ := atStart
    obtain ⟨relaxed, runsText, relaxes⟩ :=
      stands item List.mem_cons_self depth final runs closed
    refine ⟨relaxed, relaxes, ?_⟩
    rw [List.map_singleton, List.intercalate_singleton]
    exact .last runsText
  | @more standing item text items depthBehind runs behind induction =>
    obtain ⟨depth, rfl⟩ := atStart
    obtain ⟨other, runsText, relaxesItem⟩ :=
      stands item List.mem_cons_self depth _ runs ⟨rfl, .inr rfl⟩
    obtain rfl := relaxesItem.eq_of_unescaped rfl
    obtain ⟨relaxed, relaxes, cuts⟩ := induction ⟨depthBehind, rfl⟩
      fun other member => stands other (List.mem_cons_of_mem _ member)
    refine ⟨relaxed, relaxes, ?_⟩
    obtain ⟨first, others, rfl⟩ : ∃ first others, items = first :: others := by
      cases behind <;> exact ⟨_, _, rfl⟩
    have joined : [','].intercalate ((item :: first :: others).map textOf) =
        textOf item ++ ',' :: [','].intercalate ((first :: others).map textOf) := by
      simp [List.intercalate_cons_cons]
    rw [joined]
    exact .more runsText cuts

end

end Standing

/-! ## Parts -/

theorem subset_of_mem_argumentItems {group item : List Char}
    (member : item ∈ Piece.argumentItems group) : item ⊆ group := by
  have closing : withoutClosing (group.drop 1) ⊆ group.drop 1 := by
    unfold withoutClosing
    split
    · exact List.dropLast_subset _
    · exact List.Subset.refl _
  exact fun character inItem =>
    List.mem_of_mem_drop (closing ((sublist_of_mem_cutCommas member).subset inItem))

theorem argumentItems_group (inside : List Char) :
    Piece.argumentItems ('(' :: inside ++ [')']) = commaItems inside := by
  simp [Piece.argumentItems, withoutClosing]

end ScopedStyles.Selector
