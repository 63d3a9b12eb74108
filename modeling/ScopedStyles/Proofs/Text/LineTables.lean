import ScopedStyles.Proofs.Text.Bytes
import ScopedStyles.Proofs.Text.Positions

/-!
Looking up positions in tables of lines. Halving finds the line that begins at an offset, or the
last one that begins before, in every table; and in the table of a text what is found there is the
position that walking the text finds.
-/

namespace ScopedStyles

open Text Location

/-! ## Halving -/

/-- A number belongs where an equal one is, or else between the smaller and the greater ones. -/
def Placement.Holds (numbers : Array Nat) (number : Nat) : Placement → Prop
  | .hit place => numbers[place]? = some number
  | .miss place => place ≤ numbers.size ∧ ∀ index other, numbers[index]? = some other →
    (index < place → other < number) ∧ (place ≤ index → number < other)

theorem lt_of_getElem? {numbers : Array Nat} (increasing : numbers.toList.Pairwise (· < ·))
    {index later number other : Nat} (found : numbers[index]? = some number)
    (foundLater : numbers[later]? = some other) (before : index < later) : number < other := by
  obtain ⟨_, rfl⟩ := Array.getElem?_eq_some_iff.mp found
  obtain ⟨_, rfl⟩ := Array.getElem?_eq_some_iff.mp foundLater
  exact List.pairwise_iff_getElem.mp increasing index later _ _ before

theorem le_of_getElem? {numbers : Array Nat} (increasing : numbers.toList.Pairwise (· < ·))
    {index later number other : Nat} (found : numbers[index]? = some number)
    (foundLater : numbers[later]? = some other) (before : index ≤ later) : number ≤ other := by
  rcases Nat.lt_or_eq_of_le before with before | rfl
  · exact Nat.le_of_lt (lt_of_getElem? increasing found foundLater before)
  · exact Nat.le_of_eq (Option.some.inj (found.symm.trans foundLater))

/-- Halving keeps the smaller numbers before `low` and the greater ones from `high` on. -/
theorem holds_bisect {numbers : Array Nat} (increasing : numbers.toList.Pairwise (· < ·))
    {number low high : Nat} {inside : high ≤ numbers.size} (ordered : low ≤ high)
    (below : ∀ index other, numbers[index]? = some other → index < low → other < number)
    (above : ∀ index other, numbers[index]? = some other → high ≤ index → number < other) :
    (bisect numbers number low high inside).Holds numbers number := by
  fun_induction bisect numbers number low high inside with
  | case1 low high inside proper middle equal =>
    exact Array.getElem?_eq_some_iff.mpr ⟨by omega, equal⟩
  | case2 low high inside proper middle different smaller induction =>
    refine induction (by omega) (fun index other found before => ?_) above
    have atMiddle : numbers[middle]? = some numbers[middle] := Array.getElem?_eq_getElem _
    exact Nat.lt_of_le_of_lt (le_of_getElem? increasing found atMiddle (by omega)) smaller
  | case3 low high inside proper middle different notSmaller induction =>
    refine induction (by omega) below (fun index other found behind => ?_)
    have atMiddle : numbers[middle]? = some numbers[middle] := Array.getElem?_eq_getElem _
    have least := le_of_getElem? increasing atMiddle found behind
    omega
  | case4 low high inside empty =>
    exact ⟨by omega, fun index other found =>
      ⟨below index other found, fun behind => above index other found (by omega)⟩⟩

theorem holds_placeAmong {numbers : Array Nat} (increasing : numbers.toList.Pairwise (· < ·))
    (number : Nat) : (placeAmong numbers number).Holds numbers number := by
  refine holds_bisect increasing (Nat.zero_le _) (fun _ _ _ before => by omega) ?_
  intro index other found behind
  obtain ⟨inside, _⟩ := Array.getElem?_eq_some_iff.mp found
  omega

namespace LineTable

/-- Every offset has a line: it begins there or before, and no later line does. -/
theorem exists_line?_eq_some (table : LineTable) (offset : Nat) :
    ∃ line start, table.line? offset = some line ∧ table.starts[line]? = some start ∧
      start ≤ offset ∧
      ∀ later other, table.starts[later]? = some other → line < later → offset < other := by
  have placed := holds_placeAmong table.increasing offset
  unfold line?
  split
  · rename_i line found
    rw [found] at placed
    exact ⟨line, offset, rfl, placed, Nat.le_refl _,
      fun _ _ => lt_of_getElem? table.increasing placed⟩
  · rename_i found
    rw [found] at placed
    exact absurd ((placed.2 0 0 table.first).2 (Nat.le_refl _)) (Nat.not_lt_zero offset)
  · rename_i line found
    rw [found] at placed
    obtain ⟨bounded, sides⟩ := placed
    have atLine : table.starts[line]? = some table.starts[line] := Array.getElem?_eq_getElem _
    exact ⟨line, _, rfl, atLine, Nat.le_of_lt ((sides _ _ atLine).1 (Nat.lt_succ_self line)),
      fun later other found => (sides later other found).2⟩

/-- The line of an offset is the one behind which all lines begin beyond the offset. -/
theorem line?_eq_some {table : LineTable} {offset start : Nat} {earlier later : List Nat}
    (whole : table.starts.toList = earlier ++ start :: later) (reached : start ≤ offset)
    (beyond : ∀ other ∈ later, offset < other) :
    table.line? offset = some earlier.length ∧ table.starts[earlier.length]? = some start := by
  have atStart : table.starts[earlier.length]? = some start := by
    rw [← Array.getElem?_toList, whole, List.getElem?_append_right (Nat.le_refl _), Nat.sub_self]
    rfl
  obtain ⟨line, begins, found, atLine, begun, last⟩ := table.exists_line?_eq_some offset
  rcases Nat.lt_trichotomy line earlier.length with before | same | behind
  · exact absurd (last _ _ atStart before) (Nat.not_lt.mpr reached)
  · rw [found, same]
    exact ⟨rfl, atStart⟩
  · rw [← Array.getElem?_toList, whole, List.getElem?_append_right (Nat.le_of_lt behind),
      List.getElem?_cons, if_neg (by omega)] at atLine
    exact absurd (beyond begins (List.mem_of_getElem? atLine)) (Nat.not_lt.mpr begun)

/-! ## The lines of a text -/

theorem startsFrom_append (offset : Nat) (front back : List UInt8) :
    startsFrom offset (front ++ back) =
      startsFrom offset front ++ startsFrom (offset + front.length) back := by
  induction front generalizing offset with
  | nil => rfl
  | cons byte front induction =>
    rw [List.cons_append, startsFrom, startsFrom, induction, List.length_cons,
      Nat.add_assoc, Nat.add_comm 1]
    split <;> rfl

theorem startsFrom_eq_nil {bytes : List UInt8} (single : lineEnd ∉ bytes) (offset : Nat) :
    startsFrom offset bytes = [] := by
  induction bytes generalizing offset with
  | nil => rfl
  | cons byte rest induction =>
    rw [List.mem_cons, not_or] at single
    rw [startsFrom, if_neg (Ne.symm single.1), induction single.2]

/-- The lines that begin in a text are those before its last line, and this one. -/
theorem exists_startsFrom_eq_concat (text : List Char) :
    ∃ earlier, 0 :: startsFrom 0 (text.flatMap String.utf8EncodeChar) =
      earlier ++ [lineStart text] ∧ (behind text).line = earlier.length + 1 := by
  induction text using List.reverseRecOn with
  | nil => exact ⟨[], rfl, rfl⟩
  | append_singleton text character induction =>
    obtain ⟨earlier, starts, counted⟩ := induction
    rw [List.flatMap_append, List.flatMap_singleton, startsFrom_append, ← List.cons_append, starts,
      lineStart_concat, behind_concat, Nat.zero_add, length_flatMap_utf8EncodeChar]
    by_cases breaks : character = '\n'
    · subst breaks
      refine ⟨earlier ++ [lineStart text], rfl, ?_⟩
      rw [after, if_pos rfl, counted, List.length_append]
      rfl
    · refine ⟨earlier, ?_, ?_⟩
      · rw [if_neg breaks, startsFrom_eq_nil (mt lineEnd_mem_utf8EncodeChar.mp breaks),
          List.append_nil]
      · rw [after, if_neg breaks, counted]

/-- The line of an offset behind a part of a text is the last line of that part, when no line begins
between. -/
theorem line?_ofText {text : String} {offset : Nat} {before : List Char} {rest : List UInt8}
    (whole : bytes text = before.flatMap String.utf8EncodeChar ++ rest)
    (reached : (behind before).offset ≤ offset)
    (beyond : ∀ start ∈ startsFrom (behind before).offset rest, offset < start) :
    ∃ line, (ofText text).line? offset = some line ∧
      (ofText text).starts[line]? = some (lineStart before) ∧
      (behind before).line = line + 1 := by
  obtain ⟨earlier, starts, counted⟩ := exists_startsFrom_eq_concat before
  have listed : (ofText text).starts.toList = earlier ++ lineStart before ::
      startsFrom (behind before).offset rest := by
    change 0 :: startsFrom 0 (bytes text) = _
    rw [whole, startsFrom_append, ← List.cons_append, starts, Nat.zero_add,
      length_flatMap_utf8EncodeChar, List.append_assoc, List.singleton_append]
  have begun := Nat.le_trans (lineStart_le before) reached
  obtain ⟨found, begins⟩ := line?_eq_some listed begun beyond
  exact ⟨earlier.length, found, begins, counted⟩

theorem part?_lastLine (before rest : List Char) :
    part? (String.ofList (before ++ rest)) (lineStart before) (behind before).offset =
      some (String.ofList (before.reverse.takeWhile (· ≠ '\n')).reverse) := by
  have lines := earlierLines_append_lastLine before
  refine part?_eq_some_iff.mpr ⟨String.ofList (earlierLines before), String.ofList rest, ?_, ?_, ?_⟩
  · rw [← String.ofList_append, ← String.ofList_append, lines]
  · rw [lineStart, offset_behind]
  · rw [← String.ofList_append, lines, offset_behind]

theorem part?_eq_none_of_inside {before rest : List Char} {character : Char} {offset : Nat}
    (beyond : (behind before).offset < offset)
    (short : offset < (behind before).offset + character.utf8Size) (first : Nat) :
    part? (String.ofList (before ++ character :: rest)) first offset = none := by
  rw [Option.eq_none_iff_forall_ne_some]
  intro part found
  obtain ⟨front, back, whole, -, reached⟩ := part?_eq_some_iff.mp found
  have outside := utf8ByteSize_outside whole
  omega

/-- The table of a text finds the same positions as walking the text. -/
theorem locate?_ofText (text : String) (offset : Nat) :
    (ofText text).locate? text offset = some (.ofOffset text offset) := by
  obtain ⟨text, rfl⟩ : ∃ characters, text = String.ofList characters :=
    ⟨text.toList, String.ofList_toList.symm⟩
  -- Only the offset within the text matters from here on.
  rw [← ofOffset_min, locate?, ← offset_behind]
  have bounded := Nat.min_le_right offset (behind text).offset
  generalize min offset (behind text).offset = offset at bounded
  cases stands_of_le bounded with
  | between before rest whole reached =>
    subst whole reached
    have parts : bytes (String.ofList (before ++ rest)) =
        before.flatMap String.utf8EncodeChar ++ rest.flatMap String.utf8EncodeChar := by
      rw [bytes_ofList, List.flatMap_append]
    obtain ⟨line, found, begins, counted⟩ := line?_ofText parts (Nat.le_refl _)
      fun start member => (mem_startsFrom member).1
    simp only [found, begins, part?_lastLine, Option.bind_eq_bind, Option.bind_some, Option.pure_def,
      ofOffset_behind, Option.some.injEq]
    rw [← counted, String.length_ofList, List.length_reverse, ← column_behind]
  | inside before character rest whole beyond short =>
    subst whole
    have single : lineEnd ∉ String.utf8EncodeChar character :=
      lineEnd_not_mem_utf8EncodeChar (by omega)
    have parts : bytes (String.ofList (before ++ character :: rest)) =
        before.flatMap String.utf8EncodeChar ++
          (String.utf8EncodeChar character ++ rest.flatMap String.utf8EncodeChar) := by
      rw [bytes_ofList, List.flatMap_append, List.flatMap_cons]
    -- The bytes of the open character add no line, so the next one begins behind it.
    have later (start : Nat) (member : start ∈ startsFrom (behind before).offset
        (String.utf8EncodeChar character ++ rest.flatMap String.utf8EncodeChar)) :
        offset < start := by
      rw [startsFrom_append, startsFrom_eq_nil single, List.nil_append,
        String.length_utf8EncodeChar] at member
      exact Nat.lt_trans short (mem_startsFrom member).1
    obtain ⟨line, found, begins, counted⟩ := line?_ofText parts (Nat.le_of_lt beyond) later
    have begun := Nat.le_trans (lineStart_le before) (Nat.le_of_lt beyond)
    simp only [found, begins, part?_eq_none_of_inside beyond short, Option.bind_eq_bind,
      Option.bind_some, Option.pure_def, if_pos begun, counted,
      ofOffset_inside before character rest beyond short]

end LineTable

end ScopedStyles
