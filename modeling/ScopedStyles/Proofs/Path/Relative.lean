import ScopedStyles.Options
import ScopedStyles.Proofs.Batch.Places

/-!
Paths seen from a directory. The text of a path relative to a directory goes up to the last
directory that the two have in common and down from there, or is the whole path when the roots
differ; followed from the directory, it leads back to the path. The exception are names that look
like a drive: at the beginning of a text they would be read as a root.
-/

namespace ScopedStyles

namespace Path

variable {path base : Path}

/-! ## Names -/

/-- A name begins with a letter of ASCII and a colon. -/
def LooksLikeDrive (name : String) : Prop :=
  ∃ letter rest, letter.isAlpha ∧ name.toList = letter :: ':' :: rest

theorem drive?_eq_some_iff {text rest : List Char} {letter : { letter : Char // letter.isAlpha }} :
    drive? text = some (letter, rest) ↔ text = letter.1 :: ':' :: rest := by
  constructor
  · intro found
    unfold drive? at found
    split at found
    · split at found
      · cases found
        rfl
      · cases found
    · cases found
  · rintro rfl
    simp [drive?, letter.2]

theorem looksLikeDrive_iff {name : String} :
    LooksLikeDrive name ↔ (drive? name.toList).isSome := by
  rw [Option.isSome_iff_exists]
  constructor
  · rintro ⟨letter, rest, isLetter, spelled⟩
    exact ⟨(⟨letter, isLetter⟩, rest), drive?_eq_some_iff.mpr spelled⟩
  · rintro ⟨⟨letter, rest⟩, found⟩
    exact ⟨letter.1, rest, letter.2, drive?_eq_some_iff.mp found⟩

instance (name : String) : Decidable (LooksLikeDrive name) :=
  decidable_of_iff _ looksLikeDrive_iff.symm

def HasPlainNames (path : Path) : Prop :=
  ∀ name ∈ path.names, ¬ LooksLikeDrive name

instance (path : Path) : Decidable path.HasPlainNames :=
  inferInstanceAs (Decidable (∀ name ∈ path.names, ¬ LooksLikeDrive name))

/-- A name that can stand in a text between slashes: it is not empty and has no slash of either
kind. -/
structure IsWritable (name : String) : Prop where
  nonempty : name.toList ≠ []
  noSlash : '/' ∉ name.toList
  noBackslash : '\\' ∉ name.toList

theorem isWritable_of_isSegment {name : String} (proper : isSegment name) : IsWritable name := by
  simp only [isSegment, Bool.and_eq_true, Bool.not_eq_true', List.all_eq_true] at proper
  obtain ⟨⟨⟨nonempty, _⟩, _⟩, plain⟩ := proper
  refine ⟨?_, fun slash => ?_, fun backslash => ?_⟩
  · rw [Ne, String.toList_eq_nil_iff]
    rintro rfl
    cases nonempty
  · simpa using plain _ slash
  · simpa using plain _ backslash

theorem isWritable_up : IsWritable ".." :=
  ⟨by decide, by decide, by decide⟩

theorem isWritable_of_mem_names {name : String} (member : name ∈ path.names) :
    IsWritable name := by
  obtain ⟨segment, _, rfl⟩ := List.mem_map.mp member
  exact isWritable_of_isSegment segment.2

/-! ## Following a text -/

theorem step_up (segments : List Segment) : step segments "..".toList = segments.dropLast :=
  if_pos (by decide)

theorem step_segment (segments : List Segment) (segment : Segment) :
    step segments segment.1.toList = segments ++ [segment] := by
  have proper : isSegment (String.ofList segment.1.toList) := by
    rw [String.ofList_toList]
    exact segment.2
  have noUp : segment.1.toList ≠ ['.', '.'] := by
    intro isUp
    rw [isUp] at proper
    exact absurd proper (by decide)
  rw [step, if_neg noUp, dif_pos proper]
  simp

theorem foldl_step_up (count : Nat) (segments : List Segment) :
    (List.replicate count "..".toList).foldl step segments =
      segments.take (segments.length - count) := by
  induction count generalizing segments with
  | zero => simp
  | succ count induction =>
    rw [List.replicate_succ, List.foldl_cons, step_up, induction, List.dropLast_eq_take,
      List.take_take, List.length_take]
    congr 1
    omega

theorem foldl_step_segments (segments more : List Segment) :
    (more.map fun segment => segment.1.toList).foldl step segments = segments ++ more := by
  induction more generalizing segments with
  | nil => simp
  | cons segment rest induction =>
    rw [List.map_cons, List.foldl_cons, step_segment, induction, List.append_assoc,
      List.singleton_append]

theorem mem_intercalate {names : List String} {character : Char}
    (member : character ∈ (String.intercalate "/" names).toList) :
    character = '/' ∨ ∃ name ∈ names, character ∈ name.toList := by
  induction names with
  | nil => simp at member
  | cons first rest induction =>
    by_cases alone : rest = []
    · subst alone
      exact .inr ⟨first, List.mem_singleton_self first, by simpa using member⟩
    · rw [String.intercalate_cons_of_ne_nil alone, String.toList_append, List.mem_append,
        String.toList_append, List.mem_append] at member
      rcases member with (inFirst | isSlash) | inRest
      · exact .inr ⟨first, List.mem_cons_self, inFirst⟩
      · exact .inl (List.mem_singleton.mp isSlash)
      · rcases induction inRest with isSlash | ⟨name, among, inName⟩
        · exact .inl isSlash
        · exact .inr ⟨name, List.mem_cons_of_mem first among, inName⟩

theorem splitAt_intercalate {names : List String} (nonempty : names ≠ [])
    (writable : ∀ name ∈ names, IsWritable name) :
    splitAt '/' (String.intercalate "/" names).toList = names.map String.toList := by
  have parts := WrittenPath.parts_intercalate nonempty fun name member =>
    (writable name member).noSlash
  have texts := congrArg (List.map String.toList) parts
  simpa [WrittenPath.parts, Function.comp_def] using texts

/-- Following names joined by slashes is following one name after the other. -/
theorem walk_intercalate (segments : List Segment) {names : List String}
    (writable : ∀ name ∈ names, IsWritable name) :
    walk segments (String.intercalate "/" names).toList =
      (names.map String.toList).foldl step segments := by
  have noBackslash : '\\' ∉ (String.intercalate "/" names).toList := by
    intro member
    rcases mem_intercalate member with isSlash | ⟨name, among, inName⟩
    · exact absurd isSlash (by decide)
    · exact (writable name among).noBackslash inName
  have unchanged : (String.intercalate "/" names).toList.map
      (fun character => if character = '\\' then '/' else character) =
      (String.intercalate "/" names).toList := by
    refine (List.map_congr_left fun character member => if_neg ?_).trans (List.map_id' _)
    rintro rfl
    exact noBackslash member
  rw [walk, unchanged]
  by_cases nonempty : names = []
  · subst nonempty
    rfl
  · rw [splitAt_intercalate nonempty writable]

/-! ## Roots of texts -/

theorem drive?_eq_none {text : List Char}
    (plain : ∀ letter rest, letter.isAlpha → text ≠ letter :: ':' :: rest) :
    drive? text = none := by
  rw [Option.eq_none_iff_forall_ne_some]
  rintro ⟨letter, rest⟩ found
  exact plain letter.1 rest letter.2 (drive?_eq_some_iff.mp found)

theorem exists_intercalate_eq (name : String) (names : List String) :
    ∃ rest, (String.intercalate "/" (name :: names)).toList = name.toList ++ rest ∧
      rest.head?.all (· = '/') := by
  cases names with
  | nil => exact ⟨[], by simp, rfl⟩
  | cons next others =>
    refine ⟨'/' :: (String.intercalate "/" (next :: others)).toList, ?_, rfl⟩
    rw [String.intercalate_cons_cons]
    simp

theorem drive?_append_eq_none {name : String} (nonempty : name.toList ≠ [])
    (plain : ¬ LooksLikeDrive name) {rest : List Char} (slash : rest.head?.all (· = '/')) :
    drive? (name.toList ++ rest) = none := by
  apply drive?_eq_none
  intro letter behind isLetter begins
  obtain ⟨first, others, spelled⟩ := List.exists_cons_of_ne_nil nonempty
  rw [spelled] at begins
  cases others with
  | nil =>
    have same : rest = ':' :: behind := (List.cons.inj begins).2
    simp [same] at slash
  | cons second more =>
    simp only [List.cons_append, List.cons.injEq] at begins
    obtain ⟨rfl, rfl, _⟩ := begins
    exact plain ⟨first, more, isLetter, spelled⟩

/-- A text of names that do not look like drives begins at no root. -/
theorem not_isRooted_intercalate {names : List String}
    (writable : ∀ name ∈ names, IsWritable name) (plain : ∀ name ∈ names, ¬ LooksLikeDrive name) :
    ¬ isRooted (String.intercalate "/" names) := by
  cases names with
  | nil => decide
  | cons name names =>
    have proper := writable name List.mem_cons_self
    obtain ⟨rest, whole, slash⟩ := exists_intercalate_eq name names
    have noDrive := drive?_append_eq_none proper.nonempty (plain name List.mem_cons_self) slash
    obtain ⟨first, behind, spelled⟩ := List.exists_cons_of_ne_nil proper.nonempty
    have noSlash : first ≠ '/' := by
      rintro rfl
      exact proper.noSlash (spelled ▸ List.mem_cons_self)
    have noBackslash : first ≠ '\\' := by
      rintro rfl
      exact proper.noBackslash (spelled ▸ List.mem_cons_self)
    rw [isRooted, whole, noDrive, spelled]
    simp [noSlash, noBackslash]

theorem writable_names (path : Path) : ∀ name ∈ path.names, IsWritable name :=
  fun _ member => isWritable_of_mem_names member

theorem walk_names (path : Path) (segments : List Segment) :
    walk segments (String.intercalate "/" path.names).toList = segments ++ path.segments := by
  rw [walk_intercalate segments path.writable_names, names, List.map_map]
  exact foldl_step_segments segments path.segments

theorem walk_slash (segments : List Segment) (text : List Char) :
    walk segments ('/' :: text) = walk segments text := by
  have idle : step segments [] = segments := rfl
  simp [walk, splitAt, idle]

theorem drive?_text (path : Path) : drive? path.text.toList =
    match path.root with
    | .slash => none
    | .drive letter => some (letter, '/' :: (String.intercalate "/" path.names).toList) := by
  obtain ⟨root, segments⟩ := path
  cases root with
  | slash =>
    apply drive?_eq_none
    intro letter rest isLetter begins
    simp only [text, Root.text, String.toList_append] at begins
    rw [← (List.cons.inj begins).1] at isLetter
    exact absurd isLetter (by decide)
  | drive letter =>
    apply drive?_eq_some_iff.mpr
    simp [text, Root.text]

theorem isRooted_text (path : Path) : isRooted path.text := by
  have drive := path.drive?_text
  obtain ⟨root, segments⟩ := path
  cases root with
  | slash => simp [isRooted, text, Root.text]
  | drive letter => simp [isRooted, drive]

theorem parse_text (path : Path) : parse path.text = path := by
  have drive := path.drive?_text
  obtain ⟨root, segments⟩ := path
  cases root with
  | slash =>
    have written : (text ⟨.slash, segments⟩).toList =
        '/' :: (String.intercalate "/" (names ⟨.slash, segments⟩)).toList := by
      simp [text, Root.text]
    rw [parse, drive]
    dsimp only
    rw [written, walk_slash, walk_names, List.nil_append]
  | drive letter =>
    rw [parse, drive]
    dsimp only
    rw [walk_slash, walk_names, List.nil_append]

theorem resolve_text (base path : Path) : base.resolve path.text = path := by
  rw [resolve, if_pos path.isRooted_text, parse_text]

/-! ## Going up and down again -/

theorem take_commonLength : (left right : List String) →
    left.take (commonLength left right) = right.take (commonLength left right)
  | [], right => by simp [commonLength]
  | first :: lefts, [] => by simp [commonLength]
  | first :: lefts, second :: rights => by
    rw [commonLength]
    split
    · rename_i same
      rw [List.take_succ_cons, List.take_succ_cons, same, take_commonLength lefts rights]
    · rfl

theorem commonLength_le : (left right : List String) → commonLength left right ≤ left.length
  | [], right => by simp [commonLength]
  | first :: lefts, [] => by simp [commonLength]
  | first :: lefts, second :: rights => by
    rw [commonLength]
    split
    · exact Nat.succ_le_succ (commonLength_le lefts rights)
    · exact Nat.zero_le _

/-- The names that lead from a directory to a path with the same root: up to the last directory that
the two have in common, and down from there. -/
def namesFrom (base path : Path) : List String :=
  let common := commonLength base.names path.names
  List.replicate (base.names.length - common) ".." ++ path.names.drop common

theorem mem_namesFrom {name : String} (member : name ∈ namesFrom base path) :
    name = ".." ∨ name ∈ path.names := by
  rcases List.mem_append.mp member with isUp | below
  · exact .inl (List.eq_of_mem_replicate isUp)
  · exact .inr (List.mem_of_mem_drop below)

theorem isWritable_of_mem_namesFrom {name : String} (member : name ∈ namesFrom base path) :
    IsWritable name := by
  rcases mem_namesFrom member with rfl | below
  · exact isWritable_up
  · exact isWritable_of_mem_names below

theorem not_looksLikeDrive_of_mem_namesFrom (plain : path.HasPlainNames) {name : String}
    (member : name ∈ namesFrom base path) : ¬ LooksLikeDrive name := by
  rcases mem_namesFrom member with rfl | below
  · rintro ⟨letter, rest, isLetter, spelled⟩
    rw [← (List.cons.inj spelled).1] at isLetter
    exact absurd isLetter (by decide)
  · exact plain name below

theorem foldl_step_namesFrom (base path : Path) :
    ((namesFrom base path).map String.toList).foldl step base.segments = path.segments := by
  have below := commonLength_le base.names path.names
  have sameNames := take_commonLength base.names path.names
  unfold namesFrom
  generalize commonLength base.names path.names = common at *
  have same : base.segments.take common = path.segments.take common := by
    rw [names, names, ← List.map_take, ← List.map_take] at sameNames
    exact (List.map_inj_right fun _ _ => Subtype.ext).mp sameNames
  have up : base.segments.length - (base.names.length - common) = common := by
    simp only [names, List.length_map] at below ⊢
    omega
  have down : (path.names.drop common).map String.toList =
      (path.segments.drop common).map fun segment => segment.1.toList := by
    simp [names, List.map_drop]
  rw [List.map_append, List.map_replicate, List.foldl_append, foldl_step_up, up, down,
    foldl_step_segments, same, List.take_append_drop]

theorem resolve_relativeTo (plain : path.HasPlainNames) :
    base.resolve (path.relativeTo base) = path := by
  by_cases sameRoot : path.root = base.root
  · have written : path.relativeTo base = String.intercalate "/" (namesFrom base path) :=
      if_pos sameRoot
    have writable : ∀ name ∈ namesFrom base path, IsWritable name :=
      fun _ => isWritable_of_mem_namesFrom
    have notRooted : ¬ isRooted (String.intercalate "/" (namesFrom base path)) :=
      not_isRooted_intercalate writable fun _ => not_looksLikeDrive_of_mem_namesFrom plain
    rw [written, resolve, if_neg notRooted, walk_intercalate _ writable, foldl_step_namesFrom,
      ← sameRoot]
  · have written : path.relativeTo base = path.text := if_neg sameRoot
    rw [written, resolve_text]

/-- Relative paths lead back. A path with no name that looks like a drive is what its relative text
means in the directory it is relative to, whatever the roots are; and so no two such files have the
same path in scoped names. -/
theorem relative_paths_lead_back (path base : Path) (plain : path.HasPlainNames) :
    base.resolve (path.relativeTo base) = path ∧
      ∀ (options : Options) (directory other : Path), other.HasPlainNames → other ≠ path →
        options.namePath directory other ≠ options.namePath directory path := by
  refine ⟨resolve_relativeTo plain, fun options directory other otherPlain different same => ?_⟩
  apply different
  calc other
    _ = (options.root.getD directory).resolve (options.namePath directory other) :=
      (resolve_relativeTo otherPlain).symm
    _ = (options.root.getD directory).resolve (options.namePath directory path) := by rw [same]
    _ = path := resolve_relativeTo plain

/-- A file beside the directory, one on a drive seen from elsewhere, and two files with one name. -/
theorem neighbours_lead_back :
    let path := parse "/shop/card/a.css"
    let base := parse "/shop/page/x:y"
    let onDrive := parse "C:/shop/a.css"
    path.HasPlainNames ∧ onDrive.HasPlainNames ∧ path.relativeTo base = "../../card/a.css" ∧
      base.resolve "../../card/a.css" = path ∧ base.resolve (onDrive.relativeTo base) = onDrive ∧
      Options.standard.namePath base onDrive ≠ Options.standard.namePath base path := by
  intro path base onDrive
  have plain : path.HasPlainNames := by decide +kernel
  have plainOnDrive : onDrive.HasPlainNames := by decide +kernel
  have relative : path.relativeTo base = "../../card/a.css" := by decide +kernel
  have leads := relative_paths_lead_back path base plain
  refine ⟨plain, plainOnDrive, relative, relative ▸ leads.1,
    (relative_paths_lead_back onDrive base plainOnDrive).1,
    leads.2 .standard base onDrive plainOnDrive (by decide +kernel)⟩

end Path

end ScopedStyles
