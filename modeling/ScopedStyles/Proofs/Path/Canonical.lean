import Mathlib.Data.List.Induction
import ScopedStyles.Proofs.Path.Relative
import ScopedStyles.Proofs.ScopedName.Expansion

/-!
The written form of paths. A text is a written form when it is a root and the names below it with
slashes between them; these are the texts that reading leaves as they are. What is left of the names
of any other text is told from its end: each double dot takes back a name before it, and those that
find none are dropped, so that no path leads above its root. The containing directory is a path
without its last name, and in the written form what stands before the last slash, but no less than
the root.
-/

namespace ScopedStyles

namespace Path

variable {path : Path}

/-! ## Written forms -/

/-- A root as it is written: a slash, or a letter of ASCII with a colon and a slash. -/
inductive IsRoot : String → Prop
  | slash : IsRoot "/"
  | drive (letter : Char) (isLetter : letter.isAlpha) :
    IsRoot (String.ofList [letter, ':', '/'])

/-- A name as it is written: it is not empty, no dot or double dot, and has no slash of either
kind. -/
structure IsName (name : String) : Prop extends IsWritable name where
  noDot : name ≠ "."
  noUp : name ≠ ".."

/-- A text is a root and names below it, joined by slashes. -/
def IsCanonical (text : String) : Prop :=
  ∃ root names, IsRoot root ∧ (∀ name ∈ names, IsName name) ∧
    text = root ++ String.intercalate "/" names

theorem isRoot_text (root : Root) : IsRoot root.text := by
  cases root with
  | slash => exact .slash
  | drive letter => exact .drive letter.1 letter.2

theorem IsRoot.exists_text_eq {written : String} (isRoot : IsRoot written) :
    ∃ root : Root, root.text = written := by
  cases isRoot with
  | slash => exact ⟨.slash, rfl⟩
  | drive letter isLetter => exact ⟨.drive ⟨letter, isLetter⟩, rfl⟩

theorem isSegment_iff {name : String} : isSegment name ↔ IsName name := by
  constructor
  · intro proper
    have writable := isWritable_of_isSegment proper
    simp only [isSegment, Bool.and_eq_true, bne_iff_ne] at proper
    exact ⟨writable, proper.1.1.2, proper.1.2⟩
  · intro isName
    have nonempty : name.isEmpty = false := by
      have noText := isName.nonempty
      rw [Ne, String.toList_eq_nil_iff] at noText
      simpa using noText
    have plain : ∀ character ∈ name.toList, character ≠ '/' ∧ character ≠ '\\' := by
      intro character member
      constructor
      · rintro rfl
        exact isName.noSlash member
      · rintro rfl
        exact isName.noBackslash member
    simp only [isSegment, nonempty, Bool.and_eq_true, bne_iff_ne, List.all_eq_true]
    exact ⟨⟨⟨rfl, isName.noDot⟩, isName.noUp⟩, plain⟩

theorem isCanonical_text (path : Path) : IsCanonical path.text := by
  refine ⟨path.root.text, path.names, isRoot_text path.root, fun name member => ?_, rfl⟩
  obtain ⟨segment, _, rfl⟩ := List.mem_map.mp member
  exact isSegment_iff.mp segment.2

theorem IsCanonical.exists_text_eq {text : String} (canonical : IsCanonical text) :
    ∃ path : Path, path.text = text := by
  obtain ⟨written, names, isRoot, areNames, rfl⟩ := canonical
  obtain ⟨root, rfl⟩ := isRoot.exists_text_eq
  refine ⟨⟨root, names.attach.map fun name =>
    ⟨name.1, isSegment_iff.mpr (areNames name.1 name.2)⟩⟩, ?_⟩
  simp [Path.text, Path.names, Function.comp_def]

/-- Reading leaves the written forms as they are, and no other texts. -/
theorem text_parse_eq_self_iff {text : String} : (parse text).text = text ↔ IsCanonical text := by
  constructor
  · intro same
    exact same ▸ isCanonical_text (parse text)
  · intro canonical
    obtain ⟨path, rfl⟩ := canonical.exists_text_eq
    rw [parse_text]

/-! ## Double dots -/

/-- The parts of a text between slashes of either kind, behind the drive that it begins with. -/
def partsOf (text : String) : List (List Char) :=
  let behind := ((drive? text.toList).map Prod.snd).getD text.toList
  splitAt '/' (behind.map fun character => if character = '\\' then '/' else character)

/-- What is left of the parts of a text, read from its end, when double dots that have been read are
`waiting` to take back a name each. Those that wait at the beginning take nothing back. -/
def remaining (waiting : Nat) : List (List Char) → List (List Char)
  | [] => []
  | part :: before =>
    if part = ['.', '.'] then remaining (waiting + 1) before
    else if part = [] ∨ part = ['.'] then remaining waiting before
    else if waiting = 0 then part :: remaining 0 before
    else remaining (waiting - 1) before

theorem parse_eq (text : String) :
    parse text = ⟨(parse text).root, (partsOf text).foldl step []⟩ := by
  unfold parse partsOf
  split
  · rename_i found
    rw [found]
    rfl
  · rename_i found
    rw [found]
    rfl

theorem mem_of_mem_splitAt {separator character : Char} {text part : List Char}
    (member : part ∈ splitAt separator text) (inside : character ∈ part) : character ∈ text := by
  induction text generalizing part with
  | nil =>
    rw [List.mem_singleton.mp member] at inside
    cases inside
  | cons first rest induction =>
    rw [splitAt] at member
    split at member
    · rcases List.mem_cons.mp member with rfl | member
      · cases inside
      · exact List.mem_cons_of_mem first (induction member inside)
    · split at member
      · rw [List.mem_singleton.mp member] at inside
        exact List.mem_cons.mpr (.inl (List.mem_singleton.mp inside))
      · rename_i item others cut
        rcases List.mem_cons.mp member with rfl | member
        · rcases List.mem_cons.mp inside with rfl | inside
          · exact List.mem_cons_self
          · exact List.mem_cons_of_mem first (induction (cut ▸ List.mem_cons_self) inside)
        · exact List.mem_cons_of_mem first
            (induction (cut ▸ List.mem_cons_of_mem item member) inside)

theorem backslash_not_mem_of_mem_partsOf {text : String} {part : List Char}
    (member : part ∈ partsOf text) : '\\' ∉ part := by
  intro inside
  obtain ⟨character, _, same⟩ := List.mem_map.mp (mem_of_mem_splitAt member inside)
  split at same
  · cases same
  · contradiction

theorem isWritable_of_mem_partsOf {text : String} {part : List Char} (member : part ∈ partsOf text)
    (nonempty : part ≠ []) : IsWritable (String.ofList part) where
  nonempty := by simpa using nonempty
  noSlash := by
    rw [String.toList_ofList]
    exact not_mem_of_mem_splitAt member
  noBackslash := by
    rw [String.toList_ofList]
    exact backslash_not_mem_of_mem_partsOf member

theorem step_idle (segments : List Segment) {part : List Char} (idle : part = [] ∨ part = ['.']) :
    step segments part = segments := by
  rcases idle with rfl | rfl <;> rfl

theorem step_name (segments : List Segment) {part : List Char}
    (isName : IsName (String.ofList part)) :
    step segments part = segments ++ [⟨String.ofList part, isSegment_iff.mpr isName⟩] := by
  have stepped := step_segment segments ⟨String.ofList part, isSegment_iff.mpr isName⟩
  rwa [String.toList_ofList] at stepped

/-- Going from name to name and reading from the end come to the same names. -/
theorem remaining_reverse {parts : List (List Char)} 
    (writable : ∀ part ∈ parts, part ≠ [] → IsWritable (String.ofList part)) (waiting : Nat) :
    remaining waiting parts.reverse =
      (((parts.foldl step []).map fun segment => segment.1.toList).reverse).drop waiting := by
  induction parts using List.reverseRecOn generalizing waiting with
  | nil => simp [remaining]
  | append_singleton before part induction =>
    have earlier := induction fun other member => writable other (List.mem_append_left _ member)
    rw [List.reverse_append, List.reverse_singleton, List.singleton_append, remaining,
      List.foldl_append, List.foldl_cons, List.foldl_nil]
    by_cases isUp : part = ['.', '.']
    · have stepped := step_up (before.foldl step [])
      rw [if_pos isUp, earlier, isUp]
      change _ = ((step _ "..".toList).map _).reverse.drop waiting
      rw [stepped, List.map_dropLast, ← List.tail_reverse, List.drop_tail]
    · rw [if_neg isUp]
      by_cases idle : part = [] ∨ part = ['.']
      · rw [if_pos idle, earlier, step_idle _ idle]
      · obtain ⟨nonempty, noDot⟩ := not_or.mp idle
        have isName : IsName (String.ofList part) :=
          { writable part (by simp) nonempty with
            noDot := fun isDot => noDot (String.ofList_injective isDot)
            noUp := fun same => isUp (String.ofList_injective same) }
        rw [if_neg idle, step_name _ isName]
        cases waiting with
        | zero => simp [earlier]
        | succ waiting => simp [earlier]

theorem names_parse (text : String) :
    (parse text).names.map String.toList = (remaining 0 (partsOf text).reverse).reverse := by
  rw [remaining_reverse (fun part member => isWritable_of_mem_partsOf member), List.drop_zero,
    List.reverse_reverse, parse_eq, names, List.map_map]
  rfl

/-! ## What stands behind a slash -/

theorem walk_append_slash (segments : List Segment) (text rest : List Char) :
    walk segments (text ++ '/' :: rest) = walk (walk segments text) rest := by
  simp only [walk, splitAt_eq_splitOn, List.map_append, List.map_cons]
  rw [if_neg (by decide), List.splitOn_append_cons_self, List.foldl_append]

theorem drive?_append_slash (text rest : List Char) :
    drive? (text ++ '/' :: rest) =
      (drive? text).map fun (letter, behind) => (letter, behind ++ '/' :: rest) := by
  rcases text with _ | ⟨first, _ | ⟨second, others⟩⟩
  · refine drive?_eq_none fun letter behind isLetter begins => ?_
    rw [← (List.cons.inj begins).1] at isLetter
    exact absurd isLetter (by decide)
  · refine drive?_eq_none fun letter behind _ begins => ?_
    simp at begins
  · by_cases colon : second = ':'
    · subst colon
      by_cases isLetter : first.isAlpha <;> simp [drive?, isLetter]
    · simp [drive?, colon]

theorem parse_append_slash (text rest : String) :
    parse (text ++ "/" ++ rest) =
      ⟨(parse text).root, walk (parse text).segments rest.toList⟩ := by
  have spelled : (text ++ "/" ++ rest).toList = text.toList ++ '/' :: rest.toList := by simp
  rw [parse, spelled, drive?_append_slash, parse]
  cases drive? text.toList with
  | none => 
    dsimp only [Option.map_none]
    rw [walk_append_slash]
  | some found =>
    dsimp only [Option.map_some]
    rw [walk_append_slash]

theorem directory_eq (path : Path) : path.directory = ⟨path.root, path.segments.dropLast⟩ := by
  obtain ⟨root, segments⟩ := path
  rw [directory, parent?]
  split
  · rename_i nothing
    obtain rfl : segments = [] := List.isEmpty_iff.mp nothing
    rfl
  · rfl

/-- A double dot behind a text leads to the containing directory, and a root contains itself. -/
theorem parse_up (text : String) : parse (text ++ "/..") = (parse text).directory := by
  have whole : text ++ "/.." = text ++ "/" ++ ".." := by rw [String.append_assoc]; rfl
  rw [whole, parse_append_slash, directory_eq]
  have followed : walk (parse text).segments "..".toList = (parse text).segments.dropLast := rfl
  rw [followed]

/-! ## The containing directory -/

/-- How long the root of a written form is. -/
def rootLength (text : List Char) : Nat :=
  if (drive? text).isSome then 3 else 1

/-- The written form of the containing directory, found in a written form: what stands before the
last slash, but no less than the root. -/
def containing? (text : String) : Option String :=
  (PathParts.cutLast? '/' text.toList).bind fun (before, _) =>
    if text.toList.length ≤ rootLength text.toList then none
    else if before.length < rootLength text.toList then
      some (String.ofList (text.toList.take (rootLength text.toList)))
    else some (String.ofList before)

theorem parent?_root (root : Root) : parent? ⟨root, []⟩ = none := rfl

theorem parent?_concat (root : Root) (front : List Segment) (last : Segment) :
    parent? ⟨root, front ++ [last]⟩ = some ⟨root, front⟩ := by
  simp [parent?]

theorem toList_text (path : Path) : path.text.toList =
    path.root.text.toList ++ (String.intercalate "/" path.names).toList := by
  rw [text, String.toList_append]

/-- Behind the last slash of a written form stands the last name, and before it the containing
directory, unless this is the root, which ends with the slash. -/
theorem toList_text_concat (root : Root) (front : List Segment) (last : Segment) :
    ∃ before, (text ⟨root, front ++ [last]⟩).toList = before ++ '/' :: last.1.toList ∧
      root.text.toList.length ≤ before.length + 1 ∧
      (text ⟨root, front⟩).toList =
        if before.length < root.text.toList.length then root.text.toList else before := by
  cases front with
  | nil =>
    cases root with
    | slash => exact ⟨[], by simp [toList_text, names, Root.text]⟩
    | drive letter => exact ⟨[letter.1, ':'], by simp [toList_text, names, Root.text]⟩
  | cons first rest =>
    have joined : (String.intercalate "/" (names ⟨root, first :: rest ++ [last]⟩)).toList =
        (String.intercalate "/" (names ⟨root, first :: rest⟩)).toList ++ '/' :: last.1.toList := by
      rw [names, List.map_append, String.intercalate_append_of_ne_nil (by simp) (by simp)]
      simp [names]
    refine ⟨(text ⟨root, first :: rest⟩).toList, ?_, ?_⟩
    · rw [toList_text, joined, toList_text, List.append_assoc]
    · have longer : root.text.toList.length ≤ (text ⟨root, first :: rest⟩).toList.length := by
        rw [toList_text, List.length_append]
        exact Nat.le_add_right ..
      exact ⟨Nat.le_succ_of_le longer, (if_neg (Nat.not_lt.mpr longer)).symm⟩

theorem rootLength_text (root : Root) (segments : List Segment) :
    rootLength (text ⟨root, segments⟩).toList = root.text.toList.length := by
  rw [rootLength, drive?_text]
  cases root with
  | slash => rfl
  | drive letter => simp [Root.text]

/-- The last slash of a written form shows the containing directory. -/
theorem containing?_text (path : Path) : containing? path.text = path.parent?.map text := by
  obtain ⟨root, segments⟩ := path
  unfold containing?
  rw [rootLength_text]
  rcases List.eq_nil_or_concat' segments with rfl | ⟨front, last, rfl⟩
  · have whole : (text ⟨root, []⟩).toList.length = root.text.toList.length := by
      simp [toList_text, names]
    simp [parent?_root, whole]
  · have nonempty := List.length_pos_iff.mpr (isWritable_of_isSegment last.2).nonempty
    obtain ⟨before, written, atLeast, above⟩ := toList_text_concat root front last
    have cut : PathParts.cutLast? '/' (text ⟨root, front ++ [last]⟩).toList =
        some (before, last.1.toList) := by
      rw [written]
      exact PathParts.cutLast?_append (isWritable_of_isSegment last.2).noSlash before
    have begins : (text ⟨root, front ++ [last]⟩).toList.take root.text.toList.length =
        root.text.toList := by
      rw [toList_text, List.take_left]
    have longer : ¬ (text ⟨root, front ++ [last]⟩).toList.length ≤ root.text.toList.length := by
      rw [written, List.length_append, List.length_cons]
      omega
    rw [begins, cut, Option.bind_some, parent?_concat, Option.map_some]
    dsimp only
    rw [if_neg longer, ← String.ofList_toList (s := text ⟨root, front⟩), above]
    split <;> rfl

/-- Where going to the containing directory leads after a number of steps. -/
def above? (path : Path) : (steps : Nat) → Option Path
  | 0 => some path
  | steps + 1 => (path.above? steps).bind parent?

/-- As many steps as there are names lead to the root, each one taking the last name, and no more
can be taken. -/
theorem above?_eq (path : Path) (steps : Nat) :
    path.above? steps =
      if steps ≤ path.segments.length then
        some ⟨path.root, path.segments.take (path.segments.length - steps)⟩
      else none := by
  induction steps with
  | zero => simp [above?]
  | succ steps induction =>
    rw [above?, induction]
    by_cases more : steps + 1 ≤ path.segments.length
    · rw [if_pos (by omega), if_pos more, Option.bind_some]
      have oneMore : path.segments.length - steps = path.segments.length - (steps + 1) + 1 := by
        omega
      rw [oneMore, List.take_succ_eq_append_getElem (by omega), parent?_concat]
    · rw [if_neg more]
      split
      · have all : path.segments.length - steps = 0 := by omega
        rw [all, List.take_zero, Option.bind_some, parent?_root]
      · rfl

/-- Paths are canonical, and climb to the root. Every text is read as a path whose written form is a
root and proper names below it, which reading leaves as it is; the names are those of the text that
no double dot takes back, and a double dot behind a text leads to the containing directory, a root
containing itself. The containing directory is what stands before the last slash of the written
form, but no less than the root; it lacks the last name and nothing else, so that as many steps as
there are names lead to the root, and no more can be taken. -/
theorem paths_are_canonical :
    (∀ text : String, IsCanonical (parse text).text ∧ parse (parse text).text = parse text ∧
      ((parse text).text = text ↔ IsCanonical text) ∧
      (parse text).names.map String.toList = (remaining 0 (partsOf text).reverse).reverse ∧
      parse (text ++ "/..") = (parse text).directory) ∧
    ∀ path : Path, containing? path.text = path.parent?.map text ∧
      ∀ steps, path.above? steps =
        if steps ≤ path.segments.length then
          some ⟨path.root, path.segments.take (path.segments.length - steps)⟩
        else none :=
  ⟨fun text => ⟨isCanonical_text (parse text), parse_text (parse text), text_parse_eq_self_iff,
    names_parse text, parse_up text⟩, fun path => ⟨containing?_text path, above?_eq path⟩⟩

example : containing? "C:/a/b.css" = some "C:/a" ∧ containing? "C:/a" = some "C:/" ∧
    containing? "C:/" = none := by decide +kernel

end Path

end ScopedStyles
