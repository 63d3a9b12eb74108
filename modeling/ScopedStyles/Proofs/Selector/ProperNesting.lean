import ScopedStyles.Proofs.Selector.Balance
import ScopedStyles.Proofs.Selector.Standing

/-!
Properly nested texts. What is opened last is closed first, in attribute brackets too. A reader sees
what this definition sees, wherever it stands, so a properly nested text is read to its end.
Balanced texts, in which no bracket holds parentheses, are properly nested.
-/

namespace ScopedStyles.Selector

open Text

/-! ## Proper nesting -/

structure Opened where
  closers : List Char
  quote : Option Char
  escaped : Bool
deriving DecidableEq, Repr

def Opened.next (opened : Opened) (character : Char) : Option Opened :=
  if opened.escaped then some { opened with escaped := false }
  else if character = '\\' then some { opened with escaped := true }
  else
    match opened.quote with
    | some quote => some { opened with quote := if character = quote then none else some quote }
    | none =>
      if isQuote character then some { opened with quote := some character }
      else (awaited opened.closers character).map fun closers => { opened with closers := closers }

/-- Whether strings, brackets and parentheses are closed, each one before those around it. -/
def isProperlyNested (text : List Char) : Bool :=
  (text.foldlM Opened.next ⟨[], none, false⟩).any fun behind =>
    behind.closers.isEmpty && behind.quote.isNone

example : isProperlyNested "[a[b=')'](c)]:not(.a\\))".toList = true := by decide +kernel
example : isProperlyNested "[(])".toList = false ∧ isProperlyNested ".a)".toList = false := by
  decide +kernel

/-! ## Texts that are properly nested -/

namespace Standing

section

variable {standing after : Standing} {behind final : Opened} {text : List Char} {character : Char}

def opened (standing : Standing) : Opened :=
  ⟨standing.closers, standing.shield.quote, standing.shield.escaped⟩

theorem next_opened (standing : Standing) (character : Char) :
    standing.opened.next character =
      (if standing.shield.takesAny then some standing.closers
        else awaited standing.closers character).map fun closers =>
          ⟨closers, (standing.shield.next character).quote,
            (standing.shield.next character).escaped⟩ := by
  obtain ⟨closers, depth, shield⟩ := standing
  rw [Shield.escaped_next]
  by_cases isEscaped : shield.escaped
  · simp [opened, Opened.next, Shield.next, Shield.takesAny, Shield.quote, isEscaped]
  by_cases isBackslash : character = '\\'
  · subst isBackslash
    simp [opened, Opened.next, Shield.next, Shield.quote, isEscaped, awaited]
  · rw [Shield.quote_next (by simpa using isEscaped) isBackslash]
    cases quote : shield.quote with
    | some quote =>
      simp [opened, Opened.next, isEscaped, isBackslash, Shield.takesAny, quote]
    | none =>
      by_cases quotes : isQuote character
      · have noCloser : awaited closers character = some closers := by
          grind [awaited, isQuote]
        simp [opened, Opened.next, isEscaped, isBackslash, Shield.takesAny, quote, quotes, noCloser]
      · have noEscape : (character == '\\') = false := beq_false_of_ne isBackslash
        simp [opened, Opened.next, isEscaped, isBackslash, Shield.takesAny, quote, quotes, noEscape]

theorem opened_step (steps : standing.step character = some after) :
    standing.opened.next character = some after.opened := by
  obtain ⟨awaits, sameShield⟩ := closers_of_step steps
  rw [next_opened, awaits, opened, sameShield]
  rfl

theorem exists_counted {depth : Nat} (positive : 0 < depth) (character : Char) :
    ∃ more, counted depth character = some more ∧ depth ≤ more + 1 := by
  unfold counted
  split
  · exact ⟨_, rfl, by omega⟩
  split
  · exact ⟨depth - 1, if_neg (by omega), by omega⟩
  · exact ⟨_, rfl, Nat.le_succ depth⟩

theorem exists_step (deep : 0 < standing.depth)
    (next : standing.opened.next character = some behind) :
    ∃ after, standing.step character = some after ∧ after.opened = behind ∧
      standing.depth ≤ after.depth + 1 := by
  rw [next_opened] at next
  obtain ⟨closersBehind, awaits, rfl⟩ := Option.map_eq_some_iff.mp next
  obtain ⟨closers, depth, shield⟩ := standing
  dsimp only at awaits deep
  rcases shield.kinds with takes | rfl | rfl
  · rw [if_pos takes] at awaits
    obtain rfl := Option.some.inj awaits
    exact ⟨_, step_takesAny takes, rfl, Nat.le_succ depth⟩
  · have awaits : awaited closers character = some closersBehind := awaits
    refine ⟨⟨closersBehind, depth, _⟩, ?_, rfl, Nat.le_succ depth⟩
    rw [step_bracket, awaits]
    rfl
  · have awaits : awaited closers character = some closersBehind := awaits
    obtain ⟨more, counts, lower⟩ := exists_counted deep character
    refine ⟨⟨closersBehind, more, _⟩, ?_, rfl, lower⟩
    rw [← bare, step_bare, awaits, counts]
    rfl

/-- Counted from deep enough, the parentheses never become fewer than none. -/
theorem exists_run (deep : text.length ≤ standing.depth)
    (runs : text.foldlM Opened.next standing.opened = some final) :
    ∃ last, standing.run text = some last ∧ last.opened = final := by
  induction text generalizing standing with
  | nil => exact ⟨standing, rfl, Option.some.inj runs⟩
  | cons character text induction =>
    obtain ⟨behind, steps, runs⟩ := Option.bind_eq_some_iff.mp runs
    have positive : 0 < standing.depth := Nat.lt_of_lt_of_le (Nat.zero_lt_succ _) deep
    obtain ⟨next, stepsHere, rfl, lower⟩ := exists_step positive steps
    have deepBehind : text.length ≤ next.depth := by
      rw [List.length_cons] at deep
      omega
    obtain ⟨last, runsBehind, same⟩ := induction deepBehind runs
    exact ⟨last, by rw [run_cons, stepsHere]; exact runsBehind, same⟩

theorem opened_run (runs : standing.run text = some after) :
    text.foldlM Opened.next standing.opened = some after.opened := by
  induction text generalizing standing with
  | nil => exact congrArg (Option.map opened) runs
  | cons character text induction =>
    obtain ⟨next, steps, runs⟩ := Option.bind_eq_some_iff.mp runs
    rw [List.foldlM_cons, opened_step steps]
    exact induction runs

end

end Standing

theorem exists_run_of_isProperlyNested {text : List Char} (nested : isProperlyNested text) :
    ∃ final, (Standing.bare [] text.length).run text = some final ∧ final.closers = [] ∧
      final.shield.guard = none := by
  unfold isProperlyNested at nested
  obtain ⟨behind, runs, closed⟩ := (Option.any_eq_true _ _).mp nested
  have deep : text.length ≤ (Standing.bare [] text.length).depth := Nat.le_refl _
  obtain ⟨final, runsHere, rfl⟩ := Standing.exists_run deep runs
  obtain ⟨nothing, noQuote⟩ : final.closers = [] ∧ final.shield.quote = none := by
    simpa [Standing.opened] using closed
  have covered := (Standing.covered_bare [] text.length).run runsHere
  refine ⟨final, runsHere, nothing, ?_⟩
  obtain ⟨closers, depth, guard, escaped⟩ := final
  obtain rfl : closers = [] := nothing
  rcases guard with _ | quote | _ | quote
  · rfl
  · cases noQuote
  · -- The end of a bracket would be awaited.
    obtain ⟨inner, outer, whole, _⟩ := covered
    exact absurd whole (by simp)
  · cases noQuote

/-! ## Texts that are balanced -/

namespace Nesting

section

variable {nesting behind final : Nesting} {text : List Char} {character : Char}

/-- What is awaited in a balanced text: the end of the attribute bracket that is open, and those of
the parentheses around it. -/
def closers (nesting : Nesting) : List Char :=
  match nesting.shield.guard with
  | some .bracket | some (.bracketString _) => ']' :: .replicate nesting.depth ')'
  | _ => .replicate nesting.depth ')'

def standing (nesting : Nesting) : Standing :=
  ⟨nesting.closers, nesting.depth, nesting.shield⟩

theorem standing_inj : nesting.standing = behind.standing ↔ nesting = behind := by
  refine ⟨fun same => ?_, congrArg standing⟩
  obtain ⟨depth, shield⟩ := nesting
  obtain ⟨depthBehind, shieldBehind⟩ := behind
  obtain ⟨-, sameDepth, sameShield⟩ := Standing.mk.inj same
  exact congr (congrArg mk sameDepth) sameShield

/-- In a string, and behind a backslash, no bracket is opened or closed. -/
theorem closers_next {depth : Nat} {shield : Shield} (takes : shield.takesAny)
    (character : Char) : closers ⟨depth, shield.next character⟩ = closers ⟨depth, shield⟩ := by
  obtain ⟨guard, escaped⟩ := shield
  cases escaped with
  | true => rfl
  | false =>
    rcases guard with _ | quote | _ | quote <;>
      simp only [Shield.takesAny, Shield.quote, closers, Shield.next] at * <;> grind

theorem standing_step_takesAny {depth : Nat} {shield : Shield} (takes : shield.takesAny)
    (steps : step ⟨depth, shield⟩ character = some behind) :
    (standing ⟨depth, shield⟩).step character = some behind.standing := by
  have shielded : ¬ shield.isBare ∧ shield ≠ ⟨some .bracket, false⟩ := by
    constructor <;> intro same
    · rw [Shield.eq_none_of_isBare same] at takes
      cases takes
    · rw [same] at takes
      cases takes
  obtain rfl : ⟨depth, shield.next character⟩ = behind := by simpa [step, shielded] using steps
  rw [standing, Standing.step_takesAny takes, standing, closers_next takes]

theorem standing_step_bracket {depth : Nat}
    (steps : step ⟨depth, some .bracket, false⟩ character = some behind) :
    (standing ⟨depth, some .bracket, false⟩).step character = some behind.standing := by
  unfold step at steps
  have passes : character ∉ ['(', ')', '['] := by
    intro refused
    simp [Shield.isBare, refused] at steps
  obtain rfl : ⟨depth, Shield.next ⟨some .bracket, false⟩ character⟩ = behind := by
    simpa [Shield.isBare, passes] using steps
  simp only [List.mem_cons, List.not_mem_nil, or_false, not_or] at passes
  rw [standing, Standing.step_bracket]
  by_cases closes : character = ']'
  · rw [closes]
    rfl
  · have awaits : awaited (closers ⟨depth, some .bracket, false⟩) character =
        some (closers ⟨depth, some .bracket, false⟩) := by
      simp [awaited, closes, passes]
    rw [awaits]
    grind [standing, closers, Shield.next]

theorem standing_step_bare {depth : Nat} (steps : step ⟨depth, .none⟩ character = some behind) :
    (standing ⟨depth, .none⟩).step character = some behind.standing := by
  by_cases special : character ∈ ['(', ')', '[', ']']
  · simp only [List.mem_cons, List.not_mem_nil, or_false] at special
    rcases special with rfl | rfl | rfl | rfl
    · obtain rfl := Option.some.inj steps
      rfl
    · cases depth with
      | zero => cases steps
      | succ depth =>
        obtain rfl := Option.some.inj steps
        rfl
    · obtain rfl := Option.some.inj steps
      rfl
    · cases steps
  · simp only [List.mem_cons, List.not_mem_nil, or_false, not_or] at special
    obtain rfl : ⟨depth, Shield.none.next character⟩ = behind := by
      simpa [step, Shield.isBare, Shield.none, special] using steps
    have sameClosers : closers ⟨depth, Shield.none.next character⟩ = .replicate depth ')' := by
      grind [closers, Shield.next, Shield.opened, Shield.none]
    rw [standing, standing, sameClosers, ← Standing.bare, Standing.step_bare]
    simp [closers, awaited, Standing.counted, Shield.none, special]

/-- Reading a balanced text is reading a text that is properly nested. -/
theorem standing_step (steps : nesting.step character = some behind) :
    nesting.standing.step character = some behind.standing := by
  obtain ⟨depth, shield⟩ := nesting
  rcases shield.kinds with takes | rfl | rfl
  · exact standing_step_takesAny takes steps
  · exact standing_step_bracket steps
  · exact standing_step_bare steps

theorem standing_run (runs : nesting.run text = some final) :
    nesting.standing.run text = some final.standing := by
  induction text generalizing nesting with
  | nil => exact congrArg (Option.map standing) runs
  | cons character text induction =>
    obtain ⟨behind, steps, runs⟩ := Option.bind_eq_some_iff.mp runs
    rw [Standing.run_cons, standing_step steps]
    exact induction runs

theorem step_inside {closers : List Char} {outer depth : Nat} {shield : Shield} {after : Standing}
    (steps : step ⟨outer + depth, shield⟩ character = some behind)
    (stepsInside : Standing.step ⟨closers, depth, shield⟩ character = some after) :
    behind = ⟨outer + after.depth, after.shield⟩ ∧
      step ⟨depth, shield⟩ character = some ⟨after.depth, after.shield⟩ := by
  have sameShield := (Standing.closers_of_step stepsInside).2
  by_cases isBare : shield.isBare
  · obtain rfl := Shield.eq_none_of_isBare isBare
    rw [← Standing.bare, Standing.step_bare] at stepsInside
    obtain ⟨_, _, counts⟩ := Option.bind_eq_some_iff.mp stepsInside
    obtain ⟨more, counts, rfl⟩ := Option.map_eq_some_iff.mp counts
    have opens : Shield.none.next '(' = .none := rfl
    have closes : Shield.none.next ')' = .none := rfl
    clear stepsInside sameShield
    unfold step Standing.counted at *
    grind
  · have sameDepth : after.depth = depth := by
      rcases shield.kinds with takes | rfl | rfl
      · rw [Standing.step_takesAny takes] at stepsInside
        rw [← Option.some.inj stepsInside]
      · rw [Standing.step_bracket] at stepsInside
        obtain ⟨_, _, rfl⟩ := Option.map_eq_some_iff.mp stepsInside
        rfl
      · exact absurd rfl isBare
    unfold step at *
    grind

theorem run_inside {closers : List Char} {outer depth : Nat} {shield : Shield} {after : Standing}
    (runs : run ⟨outer + depth, shield⟩ text = some final)
    (runsInside : Standing.run ⟨closers, depth, shield⟩ text = some after) :
    run ⟨depth, shield⟩ text = some ⟨after.depth, after.shield⟩ := by
  induction text generalizing closers depth shield with
  | nil =>
    obtain rfl := Option.some.inj runsInside
    rfl
  | cons character text induction =>
    obtain ⟨behind, steps, runs⟩ := Option.bind_eq_some_iff.mp runs
    obtain ⟨next, stepsInside, runsInside⟩ := Option.bind_eq_some_iff.mp runsInside
    obtain ⟨rfl, lower⟩ := step_inside steps stepsInside
    rw [run, List.foldlM_cons, lower]
    exact induction runs runsInside

end

end Nesting

theorem isProperlyNested_of_isBalanced {text : List Char} (balanced : isBalanced text) :
    isProperlyNested text := by
  obtain ⟨final, runs, closed⟩ := (Option.any_eq_true _ _).mp balanced
  obtain ⟨noDepth, noGuard⟩ : final.depth = 0 ∧ final.shield.guard = none := by simpa using closed
  have opens := Standing.opened_run (Nesting.standing_run runs)
  refine (Option.any_eq_true _ _).mpr ⟨final.standing.opened, opens, ?_⟩
  simp [Nesting.standing, Nesting.closers, Standing.opened, Shield.quote, noDepth, noGuard]

end ScopedStyles.Selector
