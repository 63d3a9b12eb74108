import ScopedStyles.Proofs.Identifier.Escaping
import ScopedStyles.Proofs.Selector.Items
import ScopedStyles.Proofs.Selector.Lexeme
import ScopedStyles.Proofs.Selector.SingleClass

/-!
Names, strings and brackets with something else behind them. Where a span ends is decided by the
first character behind it at most, so a span is read again as it was when what follows it begins as
before.
-/

namespace ScopedStyles

open Text

/-- A text goes on as another one did: it ends, or it begins alike. -/
def GoesOnAs (text other : List Char) : Prop :=
  text = [] ∨ text.head? = other.head?

theorem GoesOnAs.append {text other : List Char} (same : GoesOnAs text other)
    (front : List Char) : GoesOnAs (front ++ text) (front ++ other) := by
  cases front with
  | nil => exact same
  | cons first rest => exact .inr rfl

theorem goesOnAs_append_left (text rest : List Char) : GoesOnAs text (text ++ rest) := by
  cases text with
  | nil => exact .inl rfl
  | cons first text => exact .inr rfl

/-! ## Escapes -/

namespace Identifier

section

variable {text more other : List Char}

theorem takeWhile_take_of_goesOnAs {test : Char → Bool} {count : Nat}
    (same : GoesOnAs other (text.drop ((text.take count).takeWhile test).length)) :
    ((((text.take count).takeWhile test) ++ other).take count).takeWhile test =
      (text.take count).takeWhile test := by
  induction text generalizing count with
  | nil =>
    obtain rfl : other = [] := by simpa [GoesOnAs] using same
    simp
  | cons first text induction =>
    cases count with
    | zero => rfl
    | succ count =>
      by_cases passes : test first
      · simp only [List.take_succ_cons, List.takeWhile_cons_of_pos passes, List.length_cons,
          List.drop_succ_cons, List.cons_append] at same ⊢
        rw [induction same]
      · simp only [List.take_succ_cons, List.takeWhile_cons_of_neg passes, List.length_nil,
          List.drop_zero, List.nil_append] at same ⊢
        rcases same with rfl | alike
        · rfl
        · obtain ⟨others, rfl⟩ := List.head?_eq_some_iff.mp alike
          rw [List.take_succ_cons, List.takeWhile_cons_of_neg passes]

theorem terminatorLength_of_goesOnAs
    (same : GoesOnAs other (more.drop (terminatorLength more))) :
    terminatorLength (more.take (terminatorLength more) ++ other) = terminatorLength more := by
  cases more with
  | nil =>
    obtain rfl : other = [] := by simpa [GoesOnAs] using same
    rfl
  | cons first rest =>
    by_cases lineBreak : first = '\r' ∧ rest.head? = some '\n'
    · obtain ⟨others, rfl⟩ := List.head?_eq_some_iff.mp lineBreak.2
      rw [lineBreak.1]
      rfl
    · have length : terminatorLength (first :: rest) = terminatorLength [first] := by
        rw [Selector.terminatorLength_cons, if_neg lineBreak]
      rw [length] at same ⊢
      have few : terminatorLength [first] = 0 ∨ terminatorLength [first] = 1 := by
        rw [terminatorLength.eq_2 first [] (by simp)]
        split
        · exact .inr rfl
        · exact .inl rfl
      rcases few with none | one
      · rw [none] at same ⊢
        rcases same with rfl | alike
        · rfl
        · obtain ⟨others, rfl⟩ := List.head?_eq_some_iff.mp alike
          rw [List.take_zero, List.nil_append, Selector.terminatorLength_cons, if_neg, none]
          rintro ⟨rfl, _⟩
          exact absurd none (by decide)
      · rw [one] at same ⊢
        rw [List.take_succ_cons, List.take_zero, List.singleton_append,
          Selector.terminatorLength_cons, if_neg, one]
        rintro ⟨rfl, isBreak⟩
        rcases same with rfl | alike
        · cases isBreak
        · exact lineBreak ⟨rfl, alike.symm.trans isBreak⟩

theorem terminatorLength_le (text : List Char) : terminatorLength text ≤ text.length := by
  fun_cases terminatorLength text with
  | case1 => simp
  | case2 => simp
  | case3 => simp
  | case4 => simp

theorem goesOnAs_append {count : Nat} (same : GoesOnAs other (more.drop count)) :
    GoesOnAs (more.take count ++ other) more := by
  cases count with
  | zero => exact same
  | succ count =>
    cases more with
    | nil => exact same
    | cons first rest => exact .inr rfl

/-- An escape is read as it was when the text behind it goes on as before. -/
theorem readEscape_of_goesOnAs (same : GoesOnAs other (readEscape text).rest) :
    readEscape ((readEscape text).spelling ++ other) =
      ⟨(readEscape text).spelling, (readEscape text).value, other⟩ := by
  cases hex : hexDigits text with
  | nil =>
    cases text with
    | nil =>
      obtain rfl : other = [] := by simpa [GoesOnAs, readEscape, hex] using same
      rfl
    | cons character rest =>
      have noHex : ¬ isHexDigit character := fun isHex => by
        simp [hexDigits, isHex] at hex
      have stillNoHex : hexDigits (character :: other) = [] := by simp [hexDigits, noHex]
      rw [Selector.readEscape_cons hex, List.singleton_append, Selector.readEscape_cons stillNoHex]
  | cons digit digits =>
    have isHex : hexDigits text ≠ [] := by rw [hex]; exact List.cons_ne_nil _ _
    have leading : hexDigits text <+: text :=
      (List.takeWhile_prefix _).trans (List.take_prefix 6 text)
    rw [Selector.readEscape_of_hexDigits isHex, Selector.hexLength] at same ⊢
    clear hex
    dsimp only at same ⊢
    rw [List.take_add, ← List.prefix_iff_eq_take.mp leading, List.append_assoc] at *
    rw [← List.drop_drop] at same
    have sameDigits : hexDigits (hexDigits text ++
        ((text.drop (hexDigits text).length).take
          (terminatorLength (text.drop (hexDigits text).length)) ++ other)) = hexDigits text :=
      takeWhile_take_of_goesOnAs (goesOnAs_append same)
    have sameTerminator := terminatorLength_of_goesOnAs same
    rw [Selector.readEscape_of_hexDigits (by rwa [sameDigits]), Selector.hexLength, sameDigits,
      List.drop_left, sameTerminator, ← List.append_assoc]
    generalize terminator : terminatorLength (text.drop (hexDigits text).length) = count
    have whole : (hexDigits text ++ (text.drop (hexDigits text).length).take count).length =
        (hexDigits text).length + count := by
      rw [List.length_append, List.length_take_of_le (terminator ▸ terminatorLength_le _)]
    rw [List.take_left' whole, List.drop_left' whole]

end

end Identifier

namespace Selector

/-! ## Steps outside strings and brackets -/

namespace Standing

section

variable {behind : Standing} {text rest closers : List Char} {character : Char} {depth : Nat}

@[simp] theorem stepWithin_backslash :
    (bare closers depth).stepWithin '\\' = some ⟨closers, depth, none, true⟩ := rfl

@[simp] theorem stepWithin_escaped :
    stepWithin ⟨closers, depth, none, true⟩ character = some (bare closers depth) := by
  have noCut : ¬ (character = ',' ∧ (cut ⟨closers, depth, none, true⟩).separates) := by
    simp [cut, CutState.separates]
  rw [stepWithin, if_neg noCut, step_takesAny rfl]
  rfl

theorem stepWithin_neutral (neutral : character ∉ Nesting.special) :
    (bare closers depth).stepWithin character = some (bare closers depth) := by
  simp only [Nesting.special, List.mem_cons, List.not_mem_nil, or_false, not_or] at neutral
  rw [stepWithin, if_neg (by simp [neutral]), step_bare]
  simp [awaited, counted, bare, Shield.next, Shield.opened, Shield.none, isQuote, neutral]

theorem runWithin_neutral (neutral : ∀ character ∈ text, character ∉ Nesting.special) :
    (bare closers depth).runWithin (text ++ rest) = (bare closers depth).runWithin rest := by
  induction text with
  | nil => rfl
  | cons character text induction =>
    rw [List.cons_append, runWithin_cons, stepWithin_neutral (neutral character List.mem_cons_self)]
    exact induction fun other member => neutral other (List.mem_cons_of_mem _ member)

theorem runWithin_escape (first : Char) :
    (bare closers depth).runWithin ('\\' :: first :: text) =
      (bare closers depth).runWithin text := by
  simp

theorem runWithin_readEscape (first : Char) (rest : List Char) :
    (bare closers depth).runWithin ('\\' :: first :: rest) =
      (bare closers depth).runWithin (Identifier.readEscape (first :: rest)).rest := by
  obtain ⟨spelling, spelled⟩ := spelling_cons first rest
  have whole := Identifier.spelling_append_rest_readEscape (first :: rest)
  rw [spelled, List.cons_append] at whole
  generalize (Identifier.readEscape (first :: rest)).rest = behind at *
  rw [runWithin_escape, ← (List.cons.inj whole).2, runWithin_neutral]
  intro character member
  exact spelling_not_special (by rw [spelled]; exact member)

theorem eq_bare_of_stepWithin (noBackslash : character ≠ '\\')
    (noShield : Shield.opened character = none)
    (steps : (bare closers depth).stepWithin character = some behind) :
    behind = bare behind.closers behind.depth := by
  obtain ⟨_, sameShield⟩ := closers_of_step (step_of_stepWithin steps)
  obtain ⟨closersBehind, depthBehind, shieldBehind⟩ := behind
  dsimp only at sameShield
  subst sameShield
  simp [bare, Shield.next, Shield.none, noBackslash, noShield]

theorem depth_of_guarded {shield : Shield} (inside : shield.guard ≠ .none)
    (steps : stepWithin ⟨closers, depth, shield⟩ character = some behind) :
    behind.depth = depth ∧ behind.shield = shield.next character := by
  have steps := step_of_stepWithin steps
  refine ⟨?_, (closers_of_step steps).2⟩
  rcases shield.kinds with takes | rfl | rfl
  · rw [step_takesAny takes] at steps
    rw [← Option.some.inj steps]
  · rw [step_bracket] at steps
    obtain ⟨inner, _, rfl⟩ := Option.map_eq_some_iff.mp steps
    rfl
  · exact absurd rfl inside

end

end Standing

/-! ## Names -/

section

variable {text other closers : List Char} {depth : Nat}

theorem spanName_cons_of_isCharacter {character : Char} (plain : character ≠ '\\')
    (member : Identifier.isCharacter character) (rest : List Char) :
    spanName (character :: rest) = (character :: (spanName rest).1, (spanName rest).2) := by
  rw [spanName, if_neg plain, if_pos member]

/-- A name is read as it was when the text behind it goes on as before. -/
theorem spanName_of_goesOnAs (same : GoesOnAs other (spanName text).2) :
    spanName ((spanName text).1 ++ other) = ((spanName text).1, other) := by
  fun_induction spanName text with
  | case1 =>
    obtain rfl : other = [] := by simpa [GoesOnAs] using same
    rw [List.append_nil, spanName]
  | case2 rest span induction =>
    have inside := same.append span.1
    rw [spanName_append] at inside
    rw [List.cons_append, List.append_assoc, spanName_backslash,
      Identifier.readEscape_of_goesOnAs inside]
    dsimp only
    rw [induction same]
    rfl
  | case3 character rest plain member span induction =>
    rw [List.cons_append, spanName_cons_of_isCharacter plain member, induction same]
  | case4 character rest plain noMember =>
    rcases same with rfl | alike
    · rw [List.append_nil, spanName]
    · obtain ⟨others, rfl⟩ := List.head?_eq_some_iff.mp alike
      rw [List.nil_append, spanName, if_neg plain, if_neg noMember]

theorem endsName_spanName (text : List Char) : Identifier.endsName (spanName text).2 := by
  fun_induction spanName text with
  | case1 => rfl
  | case2 rest span induction => exact induction
  | case3 character rest plain member span induction => exact induction
  | case4 character rest plain noMember =>
    simp [Identifier.endsName, plain, noMember]

theorem endsName_of_goesOnAs {behind : List Char} (ends : Identifier.endsName behind)
    (same : GoesOnAs other behind) : Identifier.endsName other := by
  rcases same with rfl | alike
  · rfl
  · rwa [Identifier.endsName, alike]

/-- A name leaves open what is open, and ends in a backslash at the end of the text only. -/
theorem runWithin_spanName (text closers : List Char) (depth : Nat) :
    ∃ escaped, (Standing.bare closers depth).runWithin (spanName text).1 =
        some ⟨closers, depth, none, escaped⟩ ∧
      (escaped → (spanName text).2 = []) := by
  fun_induction spanName text with
  | case1 => exact ⟨false, rfl, fun holds => absurd holds Bool.false_ne_true⟩
  | case2 rest span induction =>
    cases rest with
    | nil => exact ⟨true, by simp [span, Identifier.readEscape, Identifier.hexDigits, spanName],
        fun _ => by simp [span, Identifier.readEscape, Identifier.hexDigits, spanName]⟩
    | cons first rest =>
      obtain ⟨escaped, runs, ends⟩ := induction
      obtain ⟨spelling, spelled⟩ := spelling_cons first rest
      refine ⟨escaped, ?_, ends⟩
      rw [spelled, List.cons_append, Standing.runWithin_escape, Standing.runWithin_neutral]
      · exact runs
      · intro character member
        exact spelling_not_special (by rw [spelled]; exact member)
  | case3 character rest plain member span induction =>
    obtain ⟨escaped, runs, ends⟩ := induction
    refine ⟨escaped, ?_, ends⟩
    rw [Standing.runWithin_cons, Standing.stepWithin_neutral (not_special (by decide) member)]
    exact runs
  | case4 => exact ⟨false, rfl, fun holds => absurd holds Bool.false_ne_true⟩

theorem runWithin_bland (bland : Bland text) :
    (Standing.bare closers depth).runWithin text = some (.bare closers depth) := by
  induction bland with
  | nil => rfl
  | @plain character rest bland _ induction =>
    rw [Standing.runWithin_cons, Standing.stepWithin_neutral (not_special (by decide) bland)]
    exact induction
  | escape _ induction => rw [Standing.runWithin_escape, induction]

end

/-! ## Strings and brackets -/

section

variable {text closers : List Char} {depth : Nat} {shield : Shield} {final : Standing}

/-- A string or a bracket that is closed in a text ends at the same place whatever is behind it. -/
theorem exists_spanShield (inside : shield.guard ≠ .none)
    (runs : Standing.runWithin ⟨closers, depth, shield⟩ text = some final)
    (closed : final.shield.guard = .none) :
    (∃ closersBehind, Standing.runWithin ⟨closers, depth, shield⟩ (spanShield shield text).1 =
        some (.bare closersBehind depth)) ∧
      ∀ other, spanShield shield ((spanShield shield text).1 ++ other) =
        ((spanShield shield text).1, other) := by
  induction text generalizing shield closers with
  | nil =>
    obtain rfl := Option.some.inj runs
    exact absurd closed inside
  | cons character text induction =>
    obtain ⟨behind, steps, runs⟩ := Option.bind_eq_some_iff.mp runs
    obtain ⟨sameDepth, sameShield⟩ := Standing.depth_of_guarded inside steps
    obtain ⟨closersBehind, depthBehind, shieldBehind⟩ := behind
    dsimp only at sameDepth sameShield
    subst sameDepth sameShield
    cases ends : (shield.next character).guard with
    | none =>
      have spanned : ∀ other, spanShield shield (character :: other) = ([character], other) := by
        simp [spanShield, ends]
      rw [Shield.next_eq_none inside ends] at steps
      refine ⟨⟨closersBehind, ?_⟩, fun other => ?_⟩
      · rw [spanned, Standing.runWithin_cons, steps]
        rfl
      · rw [spanned, List.singleton_append, spanned]
    | some guard =>
      have spanned : ∀ other, spanShield shield (character :: other) =
          (character :: (spanShield (shield.next character) other).1,
            (spanShield (shield.next character) other).2) := by
        simp [spanShield, ends]
      obtain ⟨⟨closersAtEnd, runsBehind⟩, same⟩ :=
        induction (by rw [ends]; exact Option.some_ne_none guard) runs
      refine ⟨⟨closersAtEnd, ?_⟩, fun other => ?_⟩
      · rw [spanned, Standing.runWithin_cons, steps]
        exact runsBehind
      · rw [spanned, List.cons_append, spanned, same]

end

/-! ## Groups -/

section

variable {text closers : List Char} {depth : Nat} {final : Standing}

theorem exists_group (runs : (Standing.bare closers depth).runWithin ('(' :: text) = some final)
    (closed : final.IsClosed) :
    ∃ inside after inner closersBehind, text = inside ++ ')' :: after ∧
      (Standing.bare [] 0).run inside = some (.bare inner 0) ∧
      awaited (inner ++ ')' :: closers) ')' = some closersBehind ∧
      (Standing.bare closersBehind depth).runWithin after = some final :=
  have runsInside : ((Standing.bare [] 0).inGroup closers depth).runWithin text = some final := runs
  Standing.exists_group (Standing.covered_bare [] 0) runsInside
    (Standing.depth_le_of_isClosed (Standing.run_of_runWithin runs) closed)

/-- Arguments end at the same place whatever is behind them, unless it begins a group. -/
theorem exists_spanArguments (runs : (Standing.bare closers depth).runWithin text = some final)
    (closed : final.IsClosed) :
    (∃ closersBehind, (Standing.bare closers depth).runWithin (spanArguments text).1 =
        some (.bare closersBehind depth)) ∧
      ∀ other, (other.head? = some '(' → (spanArguments text).2.head? = some '(') →
        spanArguments ((spanArguments text).1 ++ other) = ((spanArguments text).1, other) := by
  by_cases group : text.head? = some '('
  · obtain ⟨rest, rfl⟩ := List.head?_eq_some_iff.mp group
    obtain ⟨inside, after, inner, closersBehind, rfl, runsInside, ends, _⟩ :=
      exists_group runs closed
    have spans := Standing.spanArguments_group runsInside
    have spanned := spans after
    rw [List.cons_append] at spanned
    rw [spanned]
    refine ⟨⟨closersBehind, Standing.runWithin_group runsInside ends⟩, fun other _ => ?_⟩
    have whole : '(' :: inside ++ [')'] ++ other = '(' :: inside ++ ')' :: other := by simp
    dsimp only
    rw [whole]
    exact spans other
  · rw [spanArguments_of_head group]
    refine ⟨⟨closers, rfl⟩, fun other noGroup => ?_⟩
    exact spanArguments_of_head fun isGroup => group (noGroup isGroup)

end

/-- A string or a bracket opens where nothing is awaited but what was before. -/
theorem exists_stepWithin_opened {character : Char} (opens : (Shield.opened character).isSome)
    (closers : List Char) (depth : Nat) :
    ∃ closersBehind, (Standing.bare closers depth).stepWithin character =
      some ⟨closersBehind, depth, Shield.opened character, false⟩ := by
  have few : character = '"' ∨ character = '\'' ∨ character = '[' := by
    simp only [Shield.opened, isQuote] at opens
    grind
  rcases few with rfl | rfl | rfl <;> exact ⟨_, rfl⟩

end Selector

end ScopedStyles
