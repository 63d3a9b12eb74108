import ScopedStyles.Proofs.Text.Trimming
import ScopedStyles.Sheet.Event

/-!
Clean texts end where they should. Read from the left, a clean text closes its strings and its
brackets, does not end in an escape, opens no comment, and has none of some characters outside
brackets and strings. A reader that stops at these characters passes over a clean text as a whole.
-/

namespace ScopedStyles

open Text

/-- Whether a text closes what it opens, read from inside brackets, a string or an escape. Closing
brackets that nothing opened are ignored, a string must end on its line, and neither the beginning
of a comment nor one of the characters `stops` may stand outside. -/
def isClosed (stops : List Char) : (depth : Nat) → (quote : Option Char) → (escaped : Bool) →
    List Char → Bool
  | depth, quote, escaped, [] => depth == 0 && quote.isNone && !escaped
  | depth, quote, true, _ :: rest => isClosed stops depth quote false rest
  | depth, some quote, false, character :: rest =>
    if character = '\\' then isClosed stops depth (some quote) true rest
    else if character = quote then isClosed stops depth none false rest
    else character != '\n' && isClosed stops depth (some quote) false rest
  | depth, none, false, character :: rest =>
    if character = '\\' then isClosed stops depth none true rest
    else if isQuote character then isClosed stops depth (some character) false rest
    else if character = '(' || character = '[' then isClosed stops (depth + 1) none false rest
    else if character = ')' || character = ']' then isClosed stops (depth - 1) none false rest
    else
      !(character == '/' && rest.head? == some '*') && !(depth == 0 && stops.contains character) &&
        isClosed stops depth none false rest

/-- Whether a text closes what it opens, without white space at its ends. -/
def isClean (stops : List Char) (text : String) : Bool :=
  isClosed stops 0 none false text.toList &&
    !text.toList.head?.any isBlank && !text.toList.getLast?.any isBlank

example : isClean ['{', '}', ';'] "a[b=';']:not(\x7b)\\;" = true := by decide +kernel
example : isClean ['{', '}', ';'] "a;b" = false := by decide +kernel

section

variable {stops : List Char} {depth : Nat} {quote : Option Char} {escaped : Bool}

theorem isClosed_append {first second : List Char}
    (left : isClosed stops depth quote escaped first) (right : isClosed stops 0 none false second)
    (apart : second.head? ≠ some '*') : isClosed stops depth quote escaped (first ++ second) := by
  fun_induction isClosed stops depth quote escaped first with
  | case1 depth quote escaped =>
    simp only [Bool.and_eq_true, beq_iff_eq, Option.isNone_iff_eq_none, Bool.not_eq_true'] at left
    obtain ⟨⟨rfl, rfl⟩, rfl⟩ := left
    exact right
  | _ => simp_all [isClosed]

theorem isClosed_of_subset {fewer text : List Char} (less : fewer ⊆ stops)
    (closed : isClosed stops depth quote escaped text) : isClosed fewer depth quote escaped text := by
  fun_induction isClosed stops depth quote escaped text with
  | case1 => exact closed
  | case10 depth character rest _ _ _ _ induction =>
    have clear : depth = 0 → character ∉ fewer := by
      intro isZero member
      simp [isZero, less member] at closed
    cases isZero : decide (depth = 0) <;> simp_all [isClosed]
  | _ => simp_all [isClosed]

end

/-! ## Clean texts -/

section

variable {stops : List Char} {text : String}

theorem isClosed_of_isClean (clean : isClean stops text) :
    isClosed stops 0 none false text.toList :=
  (Bool.and_eq_true_iff.mp (Bool.and_eq_true_iff.mp clean).1).1

theorem not_isBlank_of_isClean (clean : isClean stops text) :
    ¬ text.toList.head?.any isBlank ∧ ¬ text.toList.getLast?.any isBlank := by
  simp only [isClean, Bool.and_eq_true, Bool.not_eq_true'] at clean
  simp [clean]

theorem trimCharacters_of_isClean (clean : isClean stops text) :
    trimCharacters text.toList = text.toList :=
  trimCharacters_eq_self (not_isBlank_of_isClean clean).1 (not_isBlank_of_isClean clean).2

end

/-! ## Reading up to a brace or semicolon -/

def braces : List Char := ['{', '}', ';']

/-- The region inside a string or not, behind a backslash or not. -/
def Region.inside : (quote : Option Char) → (escaped : Bool) → Region
  | none, false => .code
  | none, true => .escape
  | some quote, false => .string quote
  | some quote, true => .stringEscape quote

namespace Prelude

theorem scan_cons {region : Region} {depth : Nat} {first : LocatedCharacter}
    {rest : List LocatedCharacter} (goesOn : terminator? region depth first.character = none)
    (keeps : region.keeps first.character (following rest)) :
    scan region depth (first :: rest) =
      let behind := scan (region.next first.character (following rest))
        (region.depthAfter depth first.character) rest
      { behind with text := first.character :: behind.text } := by
  rw [scan, goesOn]
  simp only [keeps, ↓reduceIte]

theorem terminator?_eq_none {depth : Nat} {character : Char}
    (passes : depth = 0 → character ∉ braces) : terminator? .code depth character = none := by
  unfold terminator?
  split
  · rename_i atTop
    have passes := passes atTop.2
    simp only [braces, List.mem_cons, List.not_mem_nil, or_false, not_or] at passes
    simp [passes]
  · rfl

/-- No comment begins in a clean text, outside strings and escapes. -/
theorem opensComment_eq_false {first : LocatedCharacter} {text rest : List LocatedCharacter}
    {depth : Nat} (closed : isClosed braces depth none false
      (first.character :: text.map LocatedCharacter.character))
    (apart : following rest ≠ some '*') :
    Region.opensComment first.character (following (text ++ rest)) = false := by
  cases text with
  | nil => simpa [Region.opensComment] using fun _ => apart
  | cons second text =>
    refine Bool.eq_false_iff.mpr fun opens => ?_
    simp only [Region.opensComment, following, List.cons_append, List.head?_cons, Option.map_some,
      Bool.and_eq_true, beq_iff_eq, Option.some.injEq] at opens
    simp [isClosed, opens, isQuote] at closed

theorem isQuote_iff {character : Char} : isQuote character ↔ character = '"' ∨ character = '\'' := by
  simp [isQuote]

theorem step_closed {first : LocatedCharacter} {text rest : List LocatedCharacter} {depth : Nat}
    (closed : isClosed braces depth none false
      (first.character :: text.map LocatedCharacter.character))
    (apart : following rest ≠ some '*') :
    ∃ depth' quote' escaped',
      terminator? .code depth first.character = none ∧
      Region.code.keeps first.character (following (text ++ rest)) ∧
      Region.code.next first.character (following (text ++ rest)) = .inside quote' escaped' ∧
      Region.code.depthAfter depth first.character = depth' ∧
      isClosed braces depth' quote' escaped' (text.map LocatedCharacter.character) := by
  have noComment := opensComment_eq_false closed apart
  have keeps : Region.code.keeps first.character (following (text ++ rest)) := by
    simp [Region.keeps, noComment]
  generalize following (text ++ rest) = following at noComment keeps
  generalize first.character = character at *
  unfold isClosed at closed
  split at closed
  · rename_i escapes
    subst escapes
    refine ⟨depth, none, true, terminator?_eq_none fun _ => by decide, keeps, ?_, rfl, closed⟩
    simp [Region.next, noComment, Region.inside]
  split at closed
  · rename_i noEscape quotes
    refine ⟨depth, some character, false, terminator?_eq_none fun _ => ?_, keeps, ?_, ?_, closed⟩
    · rcases isQuote_iff.mp quotes with rfl | rfl <;> decide
    · simp [Region.next, noComment, noEscape, quotes, Region.inside]
    · rcases isQuote_iff.mp quotes with rfl | rfl <;> rfl
  rename_i noEscape noQuote
  have next : Region.code.next character following = .inside none false := by
    simp [Region.next, noComment, noEscape, noQuote, Region.inside]
  split at closed
  · rename_i opens
    refine ⟨depth + 1, none, false, terminator?_eq_none fun _ => ?_, keeps, next, ?_, closed⟩
    · have isOpening : character = '(' ∨ character = '[' := by simpa using opens
      rcases isOpening with rfl | rfl <;> decide
    · exact if_pos opens
  split at closed
  · rename_i noOpening closing
    refine ⟨depth - 1, none, false, terminator?_eq_none fun _ => ?_, keeps, next, ?_, closed⟩
    · have isClosing : character = ')' ∨ character = ']' := by simpa using closing
      rcases isClosing with rfl | rfl <;> decide
    · simp_all [Region.depthAfter]
  · rename_i noOpening noClosing
    simp only [Bool.and_eq_true, Bool.not_eq_true', Bool.and_eq_false_iff] at closed
    refine ⟨depth, none, false, terminator?_eq_none fun atTop => ?_, keeps, next, ?_, closed.2⟩
    · simpa [atTop] using closed.1.2
    · simp_all [Region.depthAfter]

theorem scan_closed {text rest : List LocatedCharacter} {depth : Nat} {quote : Option Char}
    {escaped : Bool}
    (closed : isClosed braces depth quote escaped (text.map LocatedCharacter.character))
    (apart : following rest ≠ some '*') :
    scan (.inside quote escaped) depth (text ++ rest) =
      { read rest with text := text.map LocatedCharacter.character ++ (read rest).text } := by
  induction text generalizing depth quote escaped with
  | nil =>
    simp only [List.map_nil, isClosed, Bool.and_eq_true, beq_iff_eq, Option.isNone_iff_eq_none,
      Bool.not_eq_true'] at closed
    obtain ⟨⟨rfl, rfl⟩, rfl⟩ := closed
    rfl
  | cons first text induction =>
    -- In every state the character is kept, and reading goes on in the state that is read next.
    suffices step : ∃ depth' quote' escaped',
        terminator? (.inside quote escaped) depth first.character = none ∧
        (Region.inside quote escaped).keeps first.character (following (text ++ rest)) ∧
        (Region.inside quote escaped).next first.character (following (text ++ rest)) =
          .inside quote' escaped' ∧
        (Region.inside quote escaped).depthAfter depth first.character = depth' ∧
        isClosed braces depth' quote' escaped' (text.map LocatedCharacter.character) by
      obtain ⟨depth', quote', escaped', goesOn, keeps, next, depthAfter, closed⟩ := step
      rw [List.cons_append, scan_cons goesOn keeps, next, depthAfter, induction closed]
      rfl
    rw [List.map_cons] at closed
    cases escaped with
    | true =>
      refine ⟨depth, quote, false, ?_⟩
      cases quote <;> simp_all [isClosed, Region.inside, terminator?, Region.keeps, Region.next,
        Region.depthAfter]
    | false =>
      cases quote with
      | some quote =>
        unfold isClosed at closed
        split at closed
        · refine ⟨depth, some quote, true, ?_⟩
          simp_all [Region.inside, terminator?, Region.keeps, Region.next, Region.depthAfter]
        · split at closed
          · refine ⟨depth, none, false, ?_⟩
            simp_all [Region.inside, terminator?, Region.keeps, Region.next, Region.depthAfter]
          · refine ⟨depth, some quote, false, ?_⟩
            simp_all [Region.inside, terminator?, Region.keeps, Region.next, Region.depthAfter]
      | none => exact step_closed closed apart

theorem read_terminator {entry : LocatedCharacter} {terminator : Terminator}
    (ends : terminator? .code 0 entry.character = some terminator)
    (rest : List LocatedCharacter) : read (entry :: rest) = ⟨[], terminator, rest⟩ := by
  rw [read, scan, ends]

theorem read_closed {text : List LocatedCharacter} {entry : LocatedCharacter}
    {terminator : Terminator}
    (closed : isClosed braces 0 none false (text.map LocatedCharacter.character))
    (ends : terminator? .code 0 entry.character = some terminator)
    (rest : List LocatedCharacter) :
    read (text ++ entry :: rest) =
      ⟨text.map LocatedCharacter.character, terminator, rest⟩ := by
  have apart : following (entry :: rest) ≠ some '*' := by
    intro isStar
    rw [Option.some.inj isStar] at ends
    cases ends
  have passed := scan_closed closed apart
  rw [read_terminator ends] at passed
  exact passed.trans (by rw [List.append_nil])

end Prelude

/-! ## Cutting at a colon -/

theorem cutColon_cons {state : ColonState} {character : Char} {text rest : List Char}
    (noCut : ¬ (character = ':' ∧ state.separates))
    (behind : cutColon (state.next character) (text ++ rest) =
      (cutColon .initial rest).map fun (before, after) => (text ++ before, after)) :
    cutColon state (character :: text ++ rest) =
      (cutColon .initial rest).map fun (before, after) => (character :: text ++ before, after) := by
  rw [List.cons_append, cutColon, if_neg (by simpa using noCut), behind, Option.map_map]
  rfl

/-- A clean text without a colon outside brackets and strings is passed over in search of one. -/
theorem cutColon_closed {stops text : List Char} {depth : Nat} {quote : Option Char}
    {escaped : Bool} (closed : isClosed stops depth quote escaped text) (colon : ':' ∈ stops)
    (rest : List Char) :
    cutColon ⟨depth, quote, escaped⟩ (text ++ rest) =
      (cutColon .initial rest).map fun (before, after) => (text ++ before, after) := by
  fun_induction isClosed stops depth quote escaped text with
  | case1 depth quote escaped =>
    simp only [Bool.and_eq_true, beq_iff_eq, Option.isNone_iff_eq_none, Bool.not_eq_true'] at closed
    obtain ⟨⟨rfl, rfl⟩, rfl⟩ := closed
    change cutColon .initial rest = _
    cases cutColon .initial rest <;> rfl
  | case7 depth character text noEscape quotes induction =>
    refine cutColon_cons ?_ ?_
    · rintro ⟨rfl, _⟩
      simp [isQuote] at quotes
    · simp_all [ColonState.next]
  | case8 depth character text noEscape noQuote opens induction =>
    refine cutColon_cons ?_ ?_
    · rintro ⟨rfl, _⟩
      simp at opens
    · simp_all [ColonState.next]
  | case9 depth character text noEscape noQuote noOpening closing induction =>
    refine cutColon_cons ?_ ?_
    · rintro ⟨rfl, _⟩
      simp at closing
    · simp_all [ColonState.next]
  | case10 depth character text noEscape noQuote noOpening noClosing induction =>
    simp only [Bool.and_eq_true, Bool.not_eq_true', Bool.and_eq_false_iff] at closed
    refine cutColon_cons ?_ ?_
    · rintro ⟨rfl, separates⟩
      simp_all [ColonState.separates]
    · simp_all [ColonState.next]
  | _ =>
    refine cutColon_cons ?_ ?_
    · simp [ColonState.separates]
    · simp_all [ColonState.next]

end ScopedStyles
