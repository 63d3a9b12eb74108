import ScopedStyles.Selector.Piece

/-!
What is open where reading a selector stands. The readers of selectors see different parts of it:
one counts the parentheses outside strings and brackets, and takes a bracket to end at the first
closing one; another counts every bracket. All of them are run at once here, beside the closers that
are awaited. The count of parentheses never exceeds what is awaited, so every group that is opened
in a selector ends in it.
-/

namespace ScopedStyles.Selector

open Text

/-! ## What is awaited -/

/-- The closers that are awaited behind a character outside strings, the next one first. Nothing is
the answer when the character closes what was not opened last. -/
def awaited (closers : List Char) (character : Char) : Option (List Char) :=
  if character = '(' then some (')' :: closers)
  else if character = '[' then some (']' :: closers)
  else if character = ')' ∨ character = ']' then
    if closers.head? = some character then some (closers.drop 1) else none
  else some closers

/-! ## Where reading stands -/

namespace Shield

def quote (shield : Shield) : Option Char :=
  match shield.guard with
  | some (.string quote) | some (.bracketString quote) => some quote
  | _ => .none

/-- Whether the next character is taken for itself by every reader. -/
def takesAny (shield : Shield) : Bool :=
  shield.escaped || shield.quote.isSome

theorem kinds (shield : Shield) :
    shield.takesAny ∨ shield = ⟨some .bracket, false⟩ ∨ shield = .none := by
  obtain ⟨guard, escaped⟩ := shield
  cases escaped with
  | true => exact .inl rfl
  | false =>
    match guard with
    | .none => exact .inr (.inr rfl)
    | some .bracket => exact .inr (.inl rfl)
    | some (.string quote) => exact .inl rfl
    | some (.bracketString quote) => exact .inl rfl

theorem eq_none_of_isBare {shield : Shield} (holds : shield.isBare) : shield = .none := by
  obtain ⟨guard, escaped⟩ := shield
  simp only [isBare, Bool.and_eq_true, Option.isNone_iff_eq_none, Bool.not_eq_true'] at holds
  obtain ⟨rfl, rfl⟩ := holds
  rfl

/-- Behind the end of a string or a bracket every character stands for itself. -/
theorem next_eq_none {shield : Shield} {character : Char} (inside : shield.guard ≠ .none)
    (ends : (shield.next character).guard = .none) : shield.next character = .none := by
  unfold next at *
  grind [none]

theorem escaped_next (shield : Shield) (character : Char) :
    (shield.next character).escaped = (!shield.escaped && character == '\\') := by
  unfold next
  grind [none]

theorem quote_next {shield : Shield} {character : Char} (unescaped : shield.escaped = false)
    (noBackslash : character ≠ '\\') : (shield.next character).quote =
      match shield.quote with
      | some quote => if character = quote then .none else some quote
      | .none => if isQuote character then some character else .none := by
  obtain ⟨guard, escaped⟩ := shield
  obtain rfl : escaped = false := unescaped
  rw [next, if_neg Bool.false_ne_true, if_neg noBackslash]
  rcases guard with _ | other | _ | other
  · by_cases quotes : isQuote character
    · simp [quote, opened, quotes]
    · by_cases opens : character = '['
      · subst opens
        rfl
      · simp [quote, opened, quotes, opens]
  · by_cases closes : character = other <;> simp [quote, closes]
  · by_cases closes : character = ']'
    · subst closes
      rfl
    · by_cases quotes : isQuote character <;> simp [quote, closes, quotes]
  · by_cases closes : character = other <;> simp [quote, closes]

end Shield

/-- What the readers know at a place: the closers that are awaited, the count of the parentheses
that are open outside strings and brackets, and the shield. -/
structure Standing where
  closers : List Char
  depth : Nat
  shield : Shield
deriving DecidableEq, Repr

namespace Standing

/-- The parentheses that are open behind a character outside strings and brackets. -/
def counted (depth : Nat) (character : Char) : Option Nat :=
  if character = '(' then some (depth + 1)
  else if character = ')' then if depth = 0 then none else some (depth - 1)
  else some depth

def step (standing : Standing) (character : Char) : Option Standing :=
  let shield := standing.shield.next character
  if standing.shield.takesAny then some ⟨standing.closers, standing.depth, shield⟩
  else
    (awaited standing.closers character).bind fun closers =>
      (if standing.shield.guard.isNone then counted standing.depth character
        else some standing.depth).map fun depth => ⟨closers, depth, shield⟩

def run (standing : Standing) (text : List Char) : Option Standing :=
  text.foldlM step standing

/-- What the reader that cuts at commas knows. -/
def cut (standing : Standing) : CutState :=
  ⟨standing.closers.length, standing.shield.quote, standing.shield.escaped⟩

/-- Read one character of a selector of a list; a comma outside everything would end it. -/
def stepWithin (standing : Standing) (character : Char) : Option Standing :=
  if character = ',' ∧ standing.cut.separates then none else standing.step character

def runWithin (standing : Standing) (text : List Char) : Option Standing :=
  text.foldlM stepWithin standing

def bare (closers : List Char) (depth : Nat) : Standing := ⟨closers, depth, .none⟩

section

variable {standing behind final : Standing} {text rest closers : List Char} {character : Char}
  {depth : Nat}

theorem step_takesAny {shield : Shield} (takes : shield.takesAny) :
    step ⟨closers, depth, shield⟩ character = some ⟨closers, depth, shield.next character⟩ :=
  if_pos takes

theorem step_bracket : step ⟨closers, depth, some .bracket, false⟩ character =
    (awaited closers character).map fun closers =>
      ⟨closers, depth, Shield.next ⟨some .bracket, false⟩ character⟩ := by
  have awake : ¬ (Shield.takesAny ⟨some .bracket, false⟩) := by decide
  unfold step
  rw [if_neg awake, Option.map_eq_bind]
  rfl

theorem step_bare : (bare closers depth).step character =
    (awaited closers character).bind fun closers =>
      (counted depth character).map fun depth => ⟨closers, depth, Shield.none.next character⟩ :=
  rfl

theorem closers_of_step (steps : standing.step character = some behind) :
    (if standing.shield.takesAny then some standing.closers
        else awaited standing.closers character) = some behind.closers ∧
      behind.shield = standing.shield.next character := by
  unfold step at steps
  dsimp only at steps
  split at steps
  · rename_i takes
    obtain rfl := Option.some.inj steps
    exact ⟨if_pos takes, rfl⟩
  · rename_i takes
    obtain ⟨closers, awaits, steps⟩ := Option.bind_eq_some_iff.mp steps
    obtain ⟨depth, _, rfl⟩ := Option.map_eq_some_iff.mp steps
    exact ⟨(if_neg takes).trans awaits, rfl⟩

@[simp] theorem run_nil : standing.run [] = some standing := rfl

@[simp] theorem run_cons :
    standing.run (character :: rest) = (standing.step character).bind fun next => next.run rest :=
  rfl

@[simp] theorem runWithin_nil : standing.runWithin [] = some standing := rfl

@[simp] theorem runWithin_cons : standing.runWithin (character :: rest) =
    (standing.stepWithin character).bind fun next => next.runWithin rest := rfl

theorem run_append :
    standing.run (text ++ rest) = (standing.run text).bind fun next => next.run rest :=
  List.foldlM_append ..

theorem runWithin_append :
    standing.runWithin (text ++ rest) = (standing.runWithin text).bind fun next =>
      next.runWithin rest :=
  List.foldlM_append ..

theorem step_of_stepWithin (steps : standing.stepWithin character = some behind) :
    standing.step character = some behind := by
  unfold stepWithin at steps
  split at steps
  · cases steps
  · exact steps

theorem run_of_runWithin (runs : standing.runWithin text = some final) :
    standing.run text = some final := by
  induction text generalizing standing with
  | nil => exact runs
  | cons character text induction =>
    obtain ⟨behind, steps, runs⟩ := Option.bind_eq_some_iff.mp runs
    rw [run_cons, step_of_stepWithin steps]
    exact induction runs

end

/-! ## Nothing is counted that is not awaited -/

/-- The count of parentheses exceeds those that are awaited by no more than a slack. Those that were
opened in a bracket do not count, and are awaited before the end of the bracket. -/
def Covered (slack : Nat) (standing : Standing) : Prop :=
  match standing.shield.guard with
  | none => standing.depth ≤ slack + standing.closers.count ')'
  | some (.string quote) =>
    isQuote quote ∧ standing.depth ≤ slack + standing.closers.count ')'
  | some .bracket => ∃ inner outer, standing.closers = inner ++ ']' :: outer ∧
    standing.depth ≤ slack + outer.count ')'
  | some (.bracketString quote) => isQuote quote ∧
    ∃ inner outer, standing.closers = inner ++ ']' :: outer ∧
      standing.depth ≤ slack + outer.count ')'

section

variable {standing behind final : Standing} {text closers : List Char} {character : Char}
  {depth slack : Nat}

theorem covered_bare (closers : List Char) (depth : Nat) : (bare closers depth).Covered depth :=
  Nat.le_add_right depth _

theorem awaited_eq_some {behind : List Char} (awaits : awaited closers character = some behind) :
    character = '(' ∧ behind = ')' :: closers ∨ character = '[' ∧ behind = ']' :: closers ∨
      (character = ')' ∨ character = ']') ∧ closers = character :: behind ∨
      character ∉ ['(', '[', ')', ']'] ∧ behind = closers := by
  unfold awaited at awaits
  split at awaits
  · grind
  split at awaits
  · grind
  split at awaits
  · split at awaits
    · rename_i next
      obtain ⟨others, rfl⟩ := List.head?_eq_some_iff.mp next
      grind
    · cases awaits
  · grind

theorem covered_inBracket {inner outer closersBehind : List Char}
    (few : depth ≤ slack + outer.count ')')
    (awaits : awaited (inner ++ ']' :: outer) character = some closersBehind) :
    Covered slack ⟨closersBehind, depth, Shield.next ⟨some .bracket, false⟩ character⟩ := by
  have next : ∀ other, Shield.next ⟨some .bracket, false⟩ other =
      if other = '\\' then ⟨some .bracket, true⟩
      else if other = ']' then .none
      else ⟨some (if isQuote other then .bracketString other else .bracket), false⟩ :=
    fun other => rfl
  rcases awaited_eq_some awaits with ⟨rfl, rfl⟩ | ⟨rfl, rfl⟩ | ⟨isCloser, whole⟩ | ⟨other, rfl⟩
  · exact ⟨')' :: inner, outer, rfl, few⟩
  · exact ⟨']' :: inner, outer, rfl, few⟩
  · cases inner with
    | nil =>
      obtain ⟨rfl, rfl⟩ := List.cons.inj whole
      exact few
    | cons first inner =>
      obtain ⟨rfl, rfl⟩ := List.cons.inj whole
      rcases isCloser with rfl | rfl
      · exact ⟨inner, outer, rfl, few⟩
      · -- For the shield the bracket ends here, though another end is awaited.
        have more : outer.count ')' ≤ (inner ++ ']' :: outer).count ')' := by simp
        exact Nat.le_trans few (Nat.add_le_add_left more slack)
  · have noCloser : character ≠ ']' := by
      rintro rfl
      exact other (by decide)
    rw [next, if_neg noCloser]
    split
    · exact ⟨inner, outer, rfl, few⟩
    · by_cases quotes : isQuote character
      · rw [if_pos quotes]
        exact ⟨quotes, inner, outer, rfl, few⟩
      · rw [if_neg quotes]
        exact ⟨inner, outer, rfl, few⟩

theorem covered_outside {closersBehind : List Char} {depthBehind : Nat}
    (few : depth ≤ slack + closers.count ')')
    (awaits : awaited closers character = some closersBehind)
    (counts : counted depth character = some depthBehind) :
    Covered slack ⟨closersBehind, depthBehind, Shield.none.next character⟩ := by
  rcases awaited_eq_some awaits with ⟨rfl, rfl⟩ | ⟨rfl, rfl⟩ | ⟨rfl | rfl, rfl⟩ | ⟨other, rfl⟩
  · obtain rfl : depth + 1 = depthBehind := Option.some.inj counts
    have more : (')' :: closers).count ')' = closers.count ')' + 1 := List.count_cons_self
    exact show depth + 1 ≤ slack + (')' :: closers).count ')' by omega
  · obtain rfl : depth = depthBehind := Option.some.inj counts
    exact ⟨[], closers, rfl, few⟩
  · have more : (')' :: closersBehind).count ')' = closersBehind.count ')' + 1 :=
      List.count_cons_self
    have less : depthBehind + 1 = depth := by
      simp only [counted] at counts
      grind
    exact show depthBehind ≤ slack + closersBehind.count ')' by omega
  · obtain rfl : depth = depthBehind := Option.some.inj counts
    exact few
  · have same : counted depth character = some depth := by
      unfold counted
      grind
    obtain rfl : depth = depthBehind := Option.some.inj (same.symm.trans counts)
    have next : ∀ other, Shield.none.next other =
        if other = '\\' then ⟨none, true⟩ else ⟨Shield.opened other, false⟩ := fun other => rfl
    rw [next]
    split
    · exact few
    · have noBracket : character ≠ '[' := by
        rintro rfl
        exact other (by decide)
      unfold Shield.opened
      rw [if_neg noBracket]
      split
      · exact ⟨‹_›, few⟩
      · exact few

theorem Covered.step (covered : standing.Covered slack)
    (steps : standing.step character = some behind) : behind.Covered slack := by
  obtain ⟨closers, depth, shield⟩ := standing
  rcases shield.kinds with takes | rfl | rfl
  · rw [step_takesAny takes] at steps
    obtain rfl := Option.some.inj steps
    obtain ⟨guard, escaped⟩ := shield
    cases escaped with
    | true => exact covered
    | false =>
      rcases guard with _ | quote | _ | quote <;>
        simp only [Covered, Shield.takesAny, Shield.quote, Shield.next] at * <;> grind
  · rw [step_bracket] at steps
    obtain ⟨closersBehind, awaits, rfl⟩ := Option.map_eq_some_iff.mp steps
    obtain ⟨inner, outer, rfl, few⟩ := covered
    exact covered_inBracket few awaits
  · rw [← bare, step_bare] at steps
    obtain ⟨closersBehind, awaits, steps⟩ := Option.bind_eq_some_iff.mp steps
    obtain ⟨depthBehind, counts, rfl⟩ := Option.map_eq_some_iff.mp steps
    exact covered_outside covered awaits counts

theorem Covered.run (covered : standing.Covered slack) (runs : standing.run text = some final) :
    final.Covered slack := by
  induction text generalizing standing with
  | nil =>
    obtain rfl : standing = final := Option.some.inj runs
    exact covered
  | cons character text induction =>
    obtain ⟨behind, steps, runs⟩ := Option.bind_eq_some_iff.mp runs
    exact induction (covered.step steps) runs

/-- Nothing is open but, perhaps, brackets around a group that has ended before they did. -/
def IsClosed (final : Standing) : Prop :=
  final.shield.guard = none ∧ (final.depth = 0 ∨ final.closers = [])

theorem depth_le_of_isClosed (runs : (bare closers depth).run text = some final)
    (closed : final.IsClosed) : final.depth ≤ depth := by
  have covered := (covered_bare closers depth).run runs
  rw [Covered, closed.1] at covered
  rcases closed.2 with atStart | nothing
  · rw [atStart]
    exact Nat.zero_le depth
  · rwa [nothing] at covered

end

/-! ## Groups -/

section

variable {standing behind final : Standing} {text rest closers outer : List Char}
  {character : Char} {depth count : Nat} {shield : Shield}

/-- A standing inside a group, seen from outside it. -/
def inGroup (standing : Standing) (outer : List Char) (depth : Nat) : Standing :=
  ⟨standing.closers ++ ')' :: outer, depth + 1 + standing.depth, standing.shield⟩

theorem awaited_append {before : List Char} (awaits : awaited closers character = some before) :
    awaited (closers ++ outer) character = some (before ++ outer) := by
  rcases awaited_eq_some awaits with ⟨rfl, rfl⟩ | ⟨rfl, rfl⟩ | ⟨rfl | rfl, rfl⟩ | ⟨other, rfl⟩
  · rfl
  · rfl
  · rfl
  · rfl
  · grind [awaited]

theorem awaited_of_append {before : List Char}
    (awaits : awaited (closers ++ ')' :: outer) character = some before) :
    closers = [] ∧ character = ')' ∨
      ∃ inner, awaited closers character = some inner ∧ before = inner ++ ')' :: outer := by
  rcases awaited_eq_some awaits with ⟨rfl, rfl⟩ | ⟨rfl, rfl⟩ | ⟨isCloser, whole⟩ | ⟨other, rfl⟩
  · exact .inr ⟨_, rfl, rfl⟩
  · exact .inr ⟨_, rfl, rfl⟩
  · cases closers with
    | nil => exact .inl ⟨rfl, (List.cons.inj whole).1.symm⟩
    | cons first closers =>
      obtain ⟨rfl, rfl⟩ := List.cons.inj whole
      rcases isCloser with rfl | rfl <;> exact .inr ⟨_, rfl, rfl⟩
  · exact .inr ⟨closers, by grind [awaited], rfl⟩

theorem step_inGroup (steps : standing.step character = some behind) :
    (standing.inGroup outer depth).step character = some (behind.inGroup outer depth) := by
  obtain ⟨closers, count, shield⟩ := standing
  rcases shield.kinds with takes | rfl | rfl
  · rw [step_takesAny takes] at steps
    obtain rfl := Option.some.inj steps
    exact step_takesAny takes
  · rw [step_bracket] at steps
    obtain ⟨inner, awaits, rfl⟩ := Option.map_eq_some_iff.mp steps
    rw [inGroup, step_bracket, awaited_append awaits]
    rfl
  · rw [← bare, step_bare] at steps
    obtain ⟨inner, awaits, steps⟩ := Option.bind_eq_some_iff.mp steps
    obtain ⟨more, counts, rfl⟩ := Option.map_eq_some_iff.mp steps
    have countsBehind : counted (depth + 1 + count) character = some (depth + 1 + more) := by
      unfold counted at *
      grind
    rw [inGroup, ← bare, step_bare, awaited_append awaits, countsBehind]
    rfl

theorem stepWithin_inGroup : (standing.inGroup outer depth).stepWithin character =
    (standing.inGroup outer depth).step character := by
  refine if_neg fun separates => ?_
  have isDeep : ¬ ((standing.closers.length + (outer.length + 1) : Nat) : Int) ≤ 0 := by omega
  simp [cut, inGroup, CutState.separates] at separates
  omega

theorem runWithin_inGroup (runs : standing.run text = some final) :
    (standing.inGroup outer depth).runWithin text = some (final.inGroup outer depth) := by
  induction text generalizing standing with
  | nil =>
    obtain rfl : standing = final := Option.some.inj runs
    rfl
  | cons character text induction =>
    obtain ⟨behind, steps, runs⟩ := Option.bind_eq_some_iff.mp runs
    rw [runWithin_cons, stepWithin_inGroup, step_inGroup steps]
    exact induction runs

/-- One character inside a group: it ends the group, or it is read as it would be without the group
around it. -/
theorem step_of_inGroup (covered : standing.Covered 0)
    (steps : (standing.inGroup outer depth).step character = some behind) :
    standing.depth = 0 ∧ standing.shield = .none ∧ character = ')' ∨
      ∃ next, standing.step character = some next ∧ behind = next.inGroup outer depth := by
  obtain ⟨closers, count, shield⟩ := standing
  rcases shield.kinds with takes | rfl | rfl
  · refine .inr ⟨_, step_takesAny takes, ?_⟩
    rw [inGroup, step_takesAny takes] at steps
    exact (Option.some.inj steps).symm
  · rw [inGroup, step_bracket] at steps
    obtain ⟨before, awaits, rfl⟩ := Option.map_eq_some_iff.mp steps
    rcases awaited_of_append awaits with ⟨nothing, _⟩ | ⟨inner, awaitsInside, rfl⟩
    · -- The end of the bracket is awaited.
      obtain ⟨inner, others, whole, _⟩ := covered
      exact absurd (whole.symm.trans nothing) (by simp)
    · exact .inr ⟨_, by rw [step_bracket, awaitsInside]; rfl, rfl⟩
  · rw [inGroup, ← bare, step_bare] at steps
    obtain ⟨before, awaits, steps⟩ := Option.bind_eq_some_iff.mp steps
    obtain ⟨more, counts, rfl⟩ := Option.map_eq_some_iff.mp steps
    by_cases ends : count = 0 ∧ character = ')'
    · exact .inl ⟨ends.1, rfl, ends.2⟩
    · have few : count ≤ 0 + closers.count ')' := covered
      rcases awaited_of_append awaits with ⟨rfl, rfl⟩ | ⟨inner, awaitsInside, rfl⟩
      · exact absurd ⟨by simpa using few, rfl⟩ ends
      · obtain ⟨fewer, countsInside, rfl⟩ :
            ∃ fewer, counted count character = some fewer ∧ more = depth + 1 + fewer := by
          unfold counted at *
          grind
        refine .inr ⟨⟨inner, fewer, Shield.none.next character⟩, ?_, rfl⟩
        rw [← bare, step_bare, awaitsInside, countsInside]
        rfl

/-- A group ends in a text that ends no deeper than the group begins. -/
theorem exists_group (covered : standing.Covered 0)
    (runs : (standing.inGroup outer depth).runWithin text = some final)
    (closed : final.depth ≤ depth) :
    ∃ inside after inner closers, text = inside ++ ')' :: after ∧
      standing.run inside = some (bare inner 0) ∧
      awaited (inner ++ ')' :: outer) ')' = some closers ∧
      (bare closers depth).runWithin after = some final := by
  induction text generalizing standing with
  | nil =>
    obtain rfl : standing.inGroup outer depth = final := Option.some.inj runs
    simp only [inGroup] at closed
    omega
  | cons character text induction =>
    obtain ⟨behind, steps, runs⟩ := Option.bind_eq_some_iff.mp runs
    rw [stepWithin_inGroup] at steps
    rcases step_of_inGroup covered steps with ⟨atStart, isBare, rfl⟩ | ⟨next, stepsInside, rfl⟩
    · obtain ⟨closers, count, shield⟩ := standing
      dsimp only at atStart isBare
      subst atStart isBare
      rw [inGroup, ← bare, step_bare] at steps
      obtain ⟨before, awaits, steps⟩ := Option.bind_eq_some_iff.mp steps
      obtain rfl : bare before depth = behind := by
        have counts : counted (depth + 1 + 0) ')' = some depth := rfl
        rw [counts] at steps
        exact Option.some.inj steps
      exact ⟨[], text, closers, before, rfl, rfl, awaits, runs⟩
    · obtain ⟨inside, after, inner, closers, rfl, runsInside, ends, runsAfter⟩ :=
        induction (covered.step stepsInside) runs
      refine ⟨character :: inside, after, inner, closers, rfl, ?_, ends, runsAfter⟩
      rw [run_cons, stepsInside]
      exact runsInside

theorem runWithin_group {inside inner : List Char}
    (runs : (bare [] 0).run inside = some (bare inner 0))
    (ends : awaited (inner ++ ')' :: outer) ')' = some closers) :
    (bare outer depth).runWithin ('(' :: inside ++ ')' :: rest) =
      (bare closers depth).runWithin rest := by
  have opens : (bare outer depth).stepWithin '(' =
      some ((bare [] 0).inGroup outer depth) := rfl
  have closes : ((bare inner 0).inGroup outer depth).stepWithin ')' =
      some (bare closers depth) := by
    rw [stepWithin_inGroup]
    change (bare (inner ++ ')' :: outer) (depth + 1 + 0)).step ')' = some (bare closers depth)
    rw [step_bare, ends]
    rfl
  rw [List.cons_append, runWithin_cons, opens, Option.bind_some, runWithin_append,
    runWithin_inGroup runs, Option.bind_some, runWithin_cons, closes, Option.bind_some]

theorem spanGroup_step (steps : standing.step character = some behind) :
    spanGroup standing.depth standing.shield (character :: rest) =
      (character :: (spanGroup behind.depth behind.shield rest).1,
        (spanGroup behind.depth behind.shield rest).2) := by
  obtain ⟨closers, count, shield⟩ := standing
  by_cases isBare : shield.isBare
  · obtain rfl := Shield.eq_none_of_isBare isBare
    rw [← bare, step_bare] at steps
    obtain ⟨inner, awaits, steps⟩ := Option.bind_eq_some_iff.mp steps
    obtain ⟨more, counts, rfl⟩ := Option.map_eq_some_iff.mp steps
    unfold counted at counts
    rw [spanGroup]
    grind [bare]
  · have next : behind.depth = count ∧ behind.shield = shield.next character := by
      rcases shield.kinds with takes | rfl | rfl
      · rw [step_takesAny takes] at steps
        obtain rfl := Option.some.inj steps
        exact ⟨rfl, rfl⟩
      · rw [step_bracket] at steps
        obtain ⟨inner, _, rfl⟩ := Option.map_eq_some_iff.mp steps
        exact ⟨rfl, rfl⟩
      · exact absurd rfl isBare
    rw [next.1, next.2]
    simp [spanGroup, isBare]

theorem spanGroup_append (runs : standing.run text = some final) :
    spanGroup standing.depth standing.shield (text ++ rest) =
      (text ++ (spanGroup final.depth final.shield rest).1,
        (spanGroup final.depth final.shield rest).2) := by
  induction text generalizing standing with
  | nil =>
    obtain rfl : standing = final := Option.some.inj runs
    rfl
  | cons character text induction =>
    obtain ⟨behind, steps, runs⟩ := Option.bind_eq_some_iff.mp runs
    rw [List.cons_append, spanGroup_step steps, induction runs]
    rfl

theorem spanArguments_group {inside inner : List Char}
    (runs : (bare [] 0).run inside = some (bare inner 0)) (rest : List Char) :
    spanArguments ('(' :: inside ++ ')' :: rest) = ('(' :: inside ++ [')'], rest) := by
  have spans : spanGroup 0 .none (inside ++ ')' :: rest) = (inside ++ [')'], rest) :=
    spanGroup_append runs
  rw [List.cons_append, spanArguments, spans]
  rfl

end

end Standing

end ScopedStyles.Selector
