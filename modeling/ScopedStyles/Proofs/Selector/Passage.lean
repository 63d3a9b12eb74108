import ScopedStyles.Proofs.Selector.Spans
import ScopedStyles.Proofs.Text.Trimming

/-!
A selector inside a longer text. It is read there as it is alone: its strings, brackets and groups
end inside it, and its names end where it does, except that an escape at its end takes in white
space that stands behind the selector.
-/

namespace ScopedStyles.Selector

open Text

/-! ## Names -/

section

variable {text tail lost kept closers : List Char} {depth : Nat} {final last : Standing}

theorem value_readEscape_append (named : text ≠ []) (ends : endsSelector tail) :
    (Identifier.readEscape (text ++ tail)).value = (Identifier.readEscape text).value := by
  have sameDigits := @hexDigits_append text tail ends
  by_cases hex : Identifier.hexDigits text = []
  · obtain ⟨first, rest, rfl⟩ := List.exists_cons_of_ne_nil named
    rw [List.cons_append] at sameDigits ⊢
    rw [readEscape_cons hex, readEscape_cons (sameDigits.trans hex)]
  · rw [readEscape_of_hexDigits hex,
      readEscape_of_hexDigits (by rwa [sameDigits]), sameDigits]

/-- White space stands behind a selector that ends in a backslash. -/
def Apart (final : Standing) (tail : List Char) : Prop :=
  final.shield.escaped → ∀ character, tail.head? = some character → isBlank character

theorem Apart.of_unescaped (unescaped : final.shield.escaped = false) (tail : List Char) :
    Apart final tail :=
  fun escaped => absurd escaped (Bool.eq_false_iff.mp unescaped)

/-- What a name takes of the text behind its selector, and what it is decoded as. -/
structure Takes (final : Standing) (text tail lost kept : List Char) : Prop where
  swallows : Swallows tail lost kept
  spans : spanName (text ++ tail) = ((spanName text).1 ++ lost, (spanName text).2 ++ kept)
  decodes : final.shield.escaped = false →
    Identifier.decode ((spanName text).1 ++ lost) = Identifier.decode (spanName text).1
  ends : lost = [] ∨ '\\' ∈ (spanName text).1 ∧ (spanName text).2 = []

theorem Takes.nothing (ends : endsSelector tail) (short : (spanName text).1 = [])
    (long : spanName (text ++ tail) = ([], text ++ tail)) : Takes final text tail [] tail := by
  have whole := spanName_append text
  rw [short, List.nil_append] at whole
  exact ⟨.nothing ends, by rw [short, whole, long]; rfl, fun _ => by rw [short]; rfl, .inl rfl⟩

theorem goesOnAs_spanName (text : List Char) : GoesOnAs (spanName text).1 text := by
  conv => arg 2; rw [← spanName_append text]
  exact goesOnAs_append_left _ _

theorem Takes.goesOnAs (takes : Takes final text tail lost kept) :
    GoesOnAs ((spanName text).1 ++ lost) text := by
  rcases takes.ends with rfl | ⟨escaped, _⟩
  · rw [List.append_nil]
    exact goesOnAs_spanName text
  · obtain ⟨first, rest, named⟩ := List.exists_cons_of_ne_nil (List.ne_nil_of_mem escaped)
    conv => arg 2; rw [← spanName_append text]
    rw [named]
    exact .inr rfl

/-- A name that begins in the same way with the tail behind its text and without. -/
theorem Takes.prepend {front rest : List Char} (takes : Takes final rest tail lost kept)
    (short : spanName text = (front ++ (spanName rest).1, (spanName rest).2))
    (long : spanName (text ++ tail) =
      (front ++ (spanName (rest ++ tail)).1, (spanName (rest ++ tail)).2))
    (decodes : Identifier.decode ((spanName rest).1 ++ lost) =
        Identifier.decode (spanName rest).1 →
      Identifier.decode (front ++ ((spanName rest).1 ++ lost)) =
        Identifier.decode (front ++ (spanName rest).1)) : Takes final text tail lost kept := by
  refine ⟨takes.swallows, ?_, fun unescaped => ?_, ?_⟩
  · rw [long, takes.spans, short, List.append_assoc]
  · rw [short, List.append_assoc, decodes (takes.decodes unescaped)]
  · rw [short]
    exact takes.ends.imp id fun ends => ⟨List.mem_append_right _ ends.1, ends.2⟩

theorem decode_backslash (text : List Char) :
    Identifier.decode ('\\' :: text) = (Identifier.readEscape text).value ::
      Identifier.decode (Identifier.readEscape text).rest := by
  rw [Identifier.decode, if_pos rfl]

/-- A name that ends in an escape may take in the end of the escape. -/
theorem Takes.ofEscape (named : final.shield.escaped = false → text ≠ [])
    (ended : (Identifier.readEscape text).rest = []) (ends : endsSelector tail)
    (readsOn : ReadsOn text tail lost kept) : Takes final ('\\' :: text) tail lost kept := by
  have spelled := Identifier.spelling_append_rest_readEscape text
  rw [ended, List.append_nil] at spelled
  obtain ⟨swallows, spelling, behind, _⟩ := readsOn
  rw [spelled] at spelling
  rw [ended, List.nil_append] at behind
  have short : spanName ('\\' :: text) = ('\\' :: text, []) := by
    rw [spanName_backslash, ended, spelled, spanName, List.append_nil]
  have long : spanName ('\\' :: text ++ tail) = ('\\' :: text ++ lost, kept) := by
    rw [List.cons_append, spanName_backslash, spelling, behind,
      spanName_of_endsSelector swallows.ends, List.append_nil]
    rfl
  have goesOn : GoesOnAs [] (Identifier.readEscape (text ++ tail)).rest := .inl rfl
  have again := Identifier.readEscape_of_goesOnAs goesOn
  rw [List.append_nil, spelling] at again
  refine ⟨swallows, by rw [short, long]; rfl, fun unescaped => ?_, .inr ?_⟩
  · rw [short, List.cons_append, decode_backslash, again, decode_backslash, ended,
      value_readEscape_append (named unescaped) ends]
  · rw [short]
    exact ⟨List.mem_cons_self, rfl⟩

theorem Takes.behindEscape {rest : List Char}
    (takes : Takes final (Identifier.readEscape rest).rest tail lost kept)
    (readsOn : ReadsOn rest tail [] tail) : Takes final ('\\' :: rest) tail lost kept := by
  refine takes.prepend (spanName_backslash rest) ?_ fun decodes => ?_
  · rw [List.cons_append, spanName_backslash, readsOn.spelling, readsOn.behind, List.append_nil]
  · rw [List.cons_append, List.cons_append, decode_backslash, decode_backslash,
      Identifier.readEscape_of_goesOnAs takes.goesOnAs,
      Identifier.readEscape_of_goesOnAs (goesOnAs_spanName _), decodes]

theorem Takes.behindCharacter {character : Char} {rest : List Char} (plain : character ≠ '\\')
    (member : Identifier.isCharacter character) (takes : Takes final rest tail lost kept) :
    Takes final (character :: rest) tail lost kept := by
  have short : spanName (character :: rest) =
      ([character] ++ (spanName rest).1, (spanName rest).2) :=
    spanName_cons_of_isCharacter plain member rest
  refine takes.prepend short (spanName_cons_of_isCharacter plain member (rest ++ tail)) ?_
  intro decodes
  rw [List.singleton_append, List.singleton_append, Identifier.decode_cons_of_isCharacter member,
    Identifier.decode_cons_of_isCharacter member, decodes]

/-- By the recursion of the reader of names: a name goes on inside the text, or the text ends in the
escape that has just been read. -/
theorem exists_takes (runs : (Standing.bare closers depth).runWithin text = some final)
    (ends : endsSelector tail) (apart : Apart final tail) :
    ∃ lost kept, Takes final text tail lost kept := by
  fun_induction spanName text with
  | case1 =>
    refine ⟨[], tail, .nothing ends (by rw [spanName]) ?_⟩
    rw [List.nil_append, spanName_of_endsSelector ends]
  | case2 rest span induction =>
    have escaped : rest = [] → final.shield.escaped := by
      rintro rfl
      obtain rfl := Option.some.inj runs
      rfl
    obtain ⟨lost, kept, readsOn⟩ :=
      exists_readsOn ends fun nothing => apart (escaped nothing)
    by_cases ended : (Identifier.readEscape rest).rest = []
    · have named (unescaped : final.shield.escaped = false) : rest ≠ [] := fun nothing =>
        absurd (escaped nothing) (Bool.eq_false_iff.mp unescaped)
      exact ⟨lost, kept, .ofEscape named ended ends readsOn⟩
    · obtain rfl : lost = [] := readsOn.alone.resolve_right ended
      obtain rfl : tail = kept := readsOn.swallows.whole
      cases rest with
      | nil => exact absurd rfl ended
      | cons first rest =>
        obtain ⟨lost, kept, takes⟩ :=
          induction ((Standing.runWithin_readEscape first rest).symm.trans runs)
        exact ⟨lost, kept, takes.behindEscape readsOn⟩
  | case3 character rest plain member span induction =>
    have neutral : character ∉ Nesting.special := not_special (by decide) member
    rw [Standing.runWithin_cons, Standing.stepWithin_neutral neutral] at runs
    obtain ⟨lost, kept, takes⟩ := induction runs
    exact ⟨lost, kept, takes.behindCharacter plain member⟩
  | case4 character rest plain noMember =>
    refine ⟨[], tail, .nothing ends ?_ ?_⟩
    · rw [spanName, if_neg plain, if_neg noMember]
    · rw [List.cons_append, spanName, if_neg plain, if_neg noMember]

/-- What stands behind the name is apart from what the name does not take. -/
theorem Takes.apart (takes : Takes final text tail lost kept) (apart : Apart final tail)
    (relaxes : final.Relaxes last)
    (runs : (Standing.bare closers depth).runWithin (spanName text).2 = some last) :
    Apart last kept := by
  intro escaped
  rcases takes.ends with rfl | ⟨_, nothing⟩
  · obtain rfl : tail = kept := takes.swallows.whole
    exact apart (relaxes.escaped escaped)
  · rw [nothing] at runs
    obtain rfl := Option.some.inj runs
    cases escaped

/-- The kind of a pseudo-class is the same when its name takes white space in. -/
theorem Takes.opening?_append (takes : Takes final text tail lost kept) :
    Lexeme.opening? ((spanName text).1 ++ lost) = Lexeme.opening? (spanName text).1 ∧
      Piece.scope? ((spanName text).1 ++ lost) = Piece.scope? (spanName text).1 := by
  rcases takes.ends with rfl | ⟨escaped, _⟩
  · rw [List.append_nil]
    exact ⟨rfl, rfl⟩
  · obtain ⟨noOpening, noScope⟩ := opening?_of_escaped escaped
    obtain ⟨noOpeningBehind, noScopeBehind⟩ :=
      opening?_of_escaped (List.mem_append_left lost escaped)
    exact ⟨noOpeningBehind.trans noOpening.symm, noScopeBehind.trans noScope.symm⟩

theorem runWithin_behind_spanName
    (runs : (Standing.bare closers depth).runWithin text = some final)
    (unescaped : final.shield.escaped = false) :
    (Standing.bare closers depth).runWithin (spanName text).2 = some final := by
  obtain ⟨escaped, runsName, ends⟩ := runWithin_spanName text closers depth
  rw [← spanName_append text, Standing.runWithin_append, runsName, Option.bind_some] at runs
  cases escaped with
  | false => exact runs
  | true =>
    rw [ends rfl] at runs
    obtain rfl := Option.some.inj runs
    cases unescaped

end

/-! ## Strings, brackets and arguments -/

section

variable {text tail closers : List Char} {depth : Nat} {final : Standing}

/-- A string or a bracket that a text closes ends at the same place whatever follows the text. -/
theorem spanShield_append_tail {shield : Shield} (inside : shield.guard ≠ .none)
    (runs : Standing.runWithin ⟨closers, depth, shield⟩ text = some final)
    (closed : final.shield.guard = .none) (tail : List Char) :
    spanShield shield (text ++ tail) =
      ((spanShield shield text).1, (spanShield shield text).2 ++ tail) := by
  have spans := (exists_spanShield inside runs closed).2 ((spanShield shield text).2 ++ tail)
  rwa [← List.append_assoc, spanShield_append] at spans

theorem spanArguments_append_tail
    (runs : (Standing.bare closers depth).runWithin text = some final) (closed : final.IsClosed)
    (ends : endsSelector tail) :
    spanArguments (text ++ tail) =
      ((spanArguments text).1, (spanArguments text).2 ++ tail) := by
  have noGroup := (head?_append ends (spanArguments text).2 (.inr rfl)).mp
  have spans := (exists_spanArguments runs closed).2 ((spanArguments text).2 ++ tail) noGroup
  rwa [← List.append_assoc, spanArguments_append] at spans

end

/-! ## White space -/

section

variable {text blanks closers : List Char} {standing final : Standing} {depth slack : Nat}

theorem stepWithin_blank {character : Char} (covered : standing.Covered slack)
    (unescaped : standing.shield.escaped = false) (blank : isBlank character) :
    standing.stepWithin character = some standing := by
  have neutral := not_special_of_isBlank blank
  have noQuote : ¬ isQuote character := by
    intro quotes
    simp only [isQuote, Bool.or_eq_true, beq_iff_eq] at quotes
    rcases quotes with rfl | rfl <;> exact neutral (by decide)
  simp only [Nesting.special, List.mem_cons, List.not_mem_nil, or_false, not_or] at neutral
  obtain ⟨closers, depth, guard, escaped⟩ := standing
  obtain rfl : escaped = false := unescaped
  rw [Standing.stepWithin, if_neg fun separates => neutral.2.2.2.2.2.2.2 separates.1]
  rcases guard with _ | quote | _ | quote
  · exact Standing.step_of_stepWithin (Standing.stepWithin_neutral (not_special_of_isBlank blank))
  · have other : character ≠ quote := by
      rintro rfl
      exact noQuote covered.1
    rw [Standing.step_takesAny rfl]
    simp [Shield.next, neutral, other]
  · have awaits : awaited closers character = some closers := by simp [awaited, neutral]
    rw [Standing.step_bracket, awaits]
    simp [Shield.next, neutral, noQuote]
  · have other : character ≠ quote := by
      rintro rfl
      exact noQuote covered.1
    rw [Standing.step_takesAny rfl]
    simp [Shield.next, neutral, other]

theorem runWithin_blanks (covered : standing.Covered slack)
    (unescaped : standing.shield.escaped = false)
    (blank : ∀ character ∈ blanks, isBlank character) :
    standing.runWithin blanks = some standing := by
  induction blanks with
  | nil => rfl
  | cons first blanks induction =>
    rw [Standing.runWithin_cons,
      stepWithin_blank covered unescaped (blank first List.mem_cons_self), Option.bind_some,
      induction fun other member => blank other (List.mem_cons_of_mem _ member)]

/-- Trimming a selector opens and closes nothing, whatever it cuts off. -/
theorem exists_run_trimCharacters
    (runs : (Standing.bare closers depth).runWithin text = some final) :
    ∃ middle, (Standing.bare closers depth).runWithin (trimCharacters text) = some middle ∧
      final.Resembles middle := by
  obtain ⟨front, back, whole, blankFront, blankBack⟩ := trimCharacters_split text
  generalize trimCharacters text = kept at *
  subst whole
  rw [Standing.runWithin_neutral fun character member =>
    not_special_of_isBlank (blankFront character member), Standing.runWithin_append] at runs
  obtain ⟨middle, runsKept, runsBack⟩ := Option.bind_eq_some_iff.mp runs
  have covered := (Standing.covered_bare closers depth).run (Standing.run_of_runWithin runsKept)
  refine ⟨middle, runsKept, ?_⟩
  obtain ⟨closersBehind, depthBehind, guard, escaped⟩ := middle
  cases escaped with
  | false =>
    rw [runWithin_blanks covered rfl blankBack] at runsBack
    obtain rfl := Option.some.inj runsBack
    exact ⟨rfl, rfl, rfl⟩
  | true =>
    cases back with
    | nil =>
      obtain rfl := Option.some.inj runsBack
      exact ⟨rfl, rfl, rfl⟩
    | cons first back =>
      -- The first character that is cut off is escaped.
      obtain ⟨blankFirst, blankBack⟩ := List.forall_mem_cons.mp blankBack
      have steps : Standing.stepWithin ⟨closersBehind, depthBehind, guard, true⟩ first =
          some ⟨closersBehind, depthBehind, guard, false⟩ := by
        rw [Standing.stepWithin, if_neg (by simp [Standing.cut, CutState.separates]),
          Standing.step_takesAny rfl]
        rfl
      have coveredBehind :
          Standing.Covered depth ⟨closersBehind, depthBehind, guard, false⟩ := covered
      rw [Standing.runWithin_cons, steps, Option.bind_some,
        runWithin_blanks coveredBehind rfl blankBack] at runsBack
      obtain rfl := Option.some.inj runsBack
      exact ⟨rfl, rfl, rfl⟩

end

end ScopedStyles.Selector
