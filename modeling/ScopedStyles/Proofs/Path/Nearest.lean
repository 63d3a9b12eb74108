import Mathlib.Data.List.Basic
import ScopedStyles.Path.Specifier

/-!
Where specifiers are looked for. A specifier that is blank, or has a scheme that is no drive, is
refused. One that begins at a root or with a dot directory means one path. Any other can mean a path
beside the file it stands in, and one in the package directory of each directory from there up to
the root; the first of these that exists is taken.
-/

namespace ScopedStyles

open Text

namespace Path

variable {path above : Path}

/-! ## Directories above a path -/

theorem length_segments_of_parent? (contains : path.parent? = some above) :
    above.segments.length < path.segments.length := by
  unfold parent? at contains
  split at contains
  · cases contains
  · rename_i proper
    cases contains
    have positive : 0 < path.segments.length :=
      List.length_pos_iff.mpr fun nothing => proper (by simp [nothing])
    simp only [List.length_dropLast]
    omega

/-- A path and the directories above it, nearest first: from each one to the directory that
contains it, until there is none. -/
def ancestors (path : Path) : List Path :=
  path ::
    match _contains : path.parent? with
    | none => []
    | some above => above.ancestors
termination_by path.segments.length
decreasing_by exact length_segments_of_parent? _contains

theorem upward_of_root (isRoot : path.segments = []) : path.upward = [path] := by
  obtain ⟨root, segments⟩ := path
  subst isRoot
  rfl

theorem upward_of_parent? (contains : path.parent? = some above) :
    path.upward = path :: above.upward := by
  have shorter := length_segments_of_parent? contains
  unfold parent? at contains
  split at contains
  · cases contains
  · cases contains
    have oneLess : path.segments.dropLast.length + 1 = path.segments.length := by
      simp only [List.length_dropLast] at shorter ⊢
      omega
    rw [upward, upward, ← oneLess, List.range_succ_eq_map, List.map_cons, List.map_map]
    congr 1
    · rw [Nat.sub_zero, oneLess, List.take_length]
    · apply List.map_congr_left
      intro steps _
      simp only [Function.comp_apply, mk.injEq, true_and, List.dropLast_eq_take, List.take_take,
        List.length_take]
      congr 1
      omega

/-- Cutting off the last names one after the other is going from directory to directory. -/
theorem upward_eq_ancestors (path : Path) : path.upward = path.ancestors := by
  fun_induction ancestors path with
  | case1 path induction =>
    cases contains : path.parent? with
    | none =>
      apply upward_of_root
      simpa [parent?] using contains
    | some above => rw [upward_of_parent? contains, induction above contains]

end Path

namespace Specifier

variable {specifier : String} {directory : Path} {places : List Path}

/-! ## What is refused -/

/-- A specifier begins with a scheme and a colon. -/
def HasScheme (specifier : String) (scheme : List Char) : Prop :=
  scheme ≠ [] ∧ (∀ character ∈ scheme, character ∉ [':', '/', '?', '#']) ∧
    ∃ rest, specifier.toList = scheme ++ ':' :: rest

theorem scheme?_eq_some_iff {scheme : List Char} :
    scheme? specifier.toList = some scheme ↔ HasScheme specifier scheme := by
  unfold scheme? HasScheme
  generalize specifier.toList = text
  constructor
  · intro found
    simp only [Option.ite_none_right_eq_some, Option.some.injEq, Bool.and_eq_true,
      Bool.not_eq_true', List.isEmpty_eq_false_iff, beq_iff_eq, List.head?_eq_some_iff] at found
    rcases found with ⟨⟨proper, rest, colon⟩, rfl⟩
    refine ⟨proper, fun character member => ?_, rest, ?_⟩
    · simpa [and_assoc] using List.all_eq_true.mp List.all_takeWhile character member
    · rw [← colon]
      exact (List.prefix_iff_eq_append.mp (List.takeWhile_prefix _)).symm
  · rintro ⟨proper, plain, rest, rfl⟩
    have run : (scheme ++ ':' :: rest).takeWhile (fun character =>
        !(character == ':' || character == '/' || character == '?' || character == '#')) =
        scheme := by
      rw [List.takeWhile_append_of_pos, List.takeWhile_cons_of_neg, List.append_nil]
      · simp
      · intro character member
        simpa [and_assoc] using plain character member
    simp only [run]
    simp [proper]

/-- A specifier can mean no file: it is blank, or its scheme is no letter of ASCII. -/
inductive IsRefused (specifier : String) : Prop
  | blank (blank : ∀ character ∈ specifier.toList, isBlank character)
  | scheme {scheme : List Char} (begins : HasScheme specifier scheme)
      (noDrive : ∀ letter, scheme = [letter] → ¬ letter.isAlpha)

theorem isRefused_iff : IsRefused specifier ↔ ¬ isResolvable specifier := by
  unfold isResolvable
  split
  · rename_i blank
    exact iff_of_true (.blank (List.all_eq_true.mp blank)) (by simp)
  · rename_i visible
    constructor
    · intro refused
      cases refused with
      | blank blank => exact absurd (List.all_eq_true.mpr blank) visible
      | scheme begins noDrive =>
        rw [scheme?_eq_some_iff.mpr begins]
        split
        · exact noDrive _ (Option.some.inj ‹_›)
        · simp
        · simp at *
    · intro unresolvable
      cases begins : scheme? specifier.toList with
      | none => simp [begins] at unresolvable
      | some scheme =>
        apply IsRefused.scheme (scheme?_eq_some_iff.mp begins)
        rintro letter rfl isLetter
        simp [begins, isLetter] at unresolvable

/-! ## What a specifier can mean -/

/-- A specifier begins at a root, or in a directory that dots name. -/
def NamesOnePath (specifier : String) : Prop :=
  Path.isRooted specifier ∨ (∃ rest, specifier = "./" ++ rest) ∨ ∃ rest, specifier = "../" ++ rest

/-- The path that a specifier means in the package directory of a directory. -/
def inPackages (bare : String) (directory : Path) : Path :=
  (directory.resolve "node_modules").resolve bare

/-- The paths that a specifier can mean in a directory, the preferred ones first. -/
inductive CanMean (directory : Path) : String → List Path → Prop
  | onePath {specifier : String} (names : NamesOnePath specifier) :
    CanMean directory specifier [directory.resolve specifier]
  | anyPath {specifier : String} (names : ¬ NamesOnePath specifier)
      (noTilde : specifier.toList.head? ≠ some '~') :
    CanMean directory specifier
      (directory.resolve specifier :: directory.ancestors.map (inPackages specifier))
  /-- A tilde, with the slashes behind it, says that only package directories are meant. -/
  | tilde {slashes bare : String} (allSlashes : ∀ character ∈ slashes.toList, character = '/')
      (noSlash : bare.toList.head? ≠ some '/') :
    CanMean directory ("~" ++ slashes ++ bare) (directory.ancestors.map (inPackages bare))

theorem isPrefixOf_iff {start : String} :
    start.toList.isPrefixOf specifier.toList ↔ ∃ rest, specifier = start ++ rest := by
  rw [List.isPrefixOf_iff_prefix]
  constructor
  · rintro ⟨rest, whole⟩
    exact ⟨String.ofList rest, String.toList_inj.mp (by simp [whole])⟩
  · rintro ⟨rest, rfl⟩
    exact ⟨rest.toList, by simp⟩

theorem isFixed_iff : isFixed specifier ↔ NamesOnePath specifier := by
  rw [isFixed, Bool.or_eq_true, Bool.or_eq_true, isPrefixOf_iff, isPrefixOf_iff, or_assoc,
    NamesOnePath]

/-- Nothing that begins with a tilde begins at a root or with a dot. -/
theorem not_isFixed_of_tilde (rest : String) : ¬ isFixed ("~" ++ rest) := by
  have noDrive : Path.drive? ('~' :: rest.toList) = none := by
    unfold Path.drive?
    split
    · rename_i letter behind whole
      have isTilde : '~' = letter := (List.cons.inj whole).1
      rw [dif_neg]
      simp [← isTilde]
    · rfl
  simp [isFixed, Path.isRooted, noDrive, List.isPrefixOf]

theorem package_of_tilde {slashes bare : String}
    (allSlashes : ∀ character ∈ slashes.toList, character = '/')
    (noSlash : bare.toList.head? ≠ some '/') : package ("~" ++ slashes ++ bare) = (bare, true) := by
  have cut : (slashes.toList ++ bare.toList).dropWhile (· = '/') = bare.toList := by
    rw [List.dropWhile_append_of_pos (by simpa using allSlashes)]
    cases spelled : bare.toList with
    | nil => rfl
    | cons first rest =>
      rw [spelled] at noSlash
      exact List.dropWhile_cons_of_neg (by simpa using noSlash)
  unfold package
  simp [cut]

theorem package_of_no_tilde (noTilde : specifier.toList.head? ≠ some '~') :
    package specifier = (specifier, false) := by
  unfold package
  split
  · rename_i rest whole
    rw [whole] at noTilde
    exact absurd rfl noTilde
  · rfl

/-- A specifier with a tilde is the tilde, some slashes, and what does not begin with one. -/
theorem exists_tilde (tilde : specifier.toList.head? = some '~') :
    ∃ slashes bare : String, specifier = "~" ++ slashes ++ bare ∧
      (∀ character ∈ slashes.toList, character = '/') ∧ bare.toList.head? ≠ some '/' := by
  rcases List.head?_eq_some_iff.mp tilde with ⟨rest, whole⟩
  refine ⟨.ofList (rest.takeWhile (· = '/')), .ofList (rest.dropWhile (· = '/')), ?_, ?_, ?_⟩
  · apply String.toList_inj.mp
    simp [whole]
  · intro character member
    rw [String.toList_ofList] at member
    simpa using List.all_eq_true.mp List.all_takeWhile character member
  · rw [String.toList_ofList]
    intro first
    have noSlash := List.head?_dropWhile_not (fun character : Char => decide (character = '/')) rest
    rw [first] at noSlash
    simp at noSlash

theorem candidates_eq (means : CanMean directory specifier places) :
    candidates directory specifier = places := by
  cases means with
  | onePath names => rw [candidates, if_pos (isFixed_iff.mpr names)]
  | anyPath names noTilde =>
    rw [candidates, if_neg (isFixed_iff.not.mpr names), package_of_no_tilde noTilde,
      Path.upward_eq_ancestors]
    rfl
  | @tilde slashes bare allSlashes noSlash =>
    have notFixed := not_isFixed_of_tilde (slashes ++ bare)
    rw [← String.append_assoc] at notFixed
    rw [candidates, if_neg notFixed, package_of_tilde allSlashes noSlash, Path.upward_eq_ancestors]
    rfl

theorem exists_canMean (directory : Path) (specifier : String) :
    ∃ places, CanMean directory specifier places := by
  by_cases names : NamesOnePath specifier
  · exact ⟨_, .onePath names⟩
  by_cases tilde : specifier.toList.head? = some '~'
  · obtain ⟨slashes, bare, rfl, allSlashes, noSlash⟩ := exists_tilde tilde
    exact ⟨_, .tilde allSlashes noSlash⟩
  · exact ⟨_, .anyPath names tilde⟩

end Specifier

namespace Resolver

/-- An outcome is the first of some paths that exists, or it gives the reason why none does. -/
structure IsFirst (present : Path → Bool) (places : List Path) (reason : String)
    (outcome : Except String Path) : Prop where
  found : ∀ path, outcome = .ok path ↔ ∃ before after, places = before ++ path :: after ∧
    present path ∧ ∀ earlier ∈ before, ¬ present earlier
  fails : ∀ text, outcome = .error text ↔ text = reason ∧ ∀ path ∈ places, ¬ present path

theorem isFirst_find? (present : Path → Bool) (places : List Path) (reason : String) :
    IsFirst present places reason
      (match places.find? present with
      | some path => .ok path
      | none => .error reason) := by
  have first (path : Path) : places.find? present = some path ↔
      ∃ before after, places = before ++ path :: after ∧
        present path ∧ ∀ earlier ∈ before, ¬ present earlier := by
    rw [List.find?_eq_some_iff_append]
    constructor
    · rintro ⟨isThere, before, after, split, earlier⟩
      exact ⟨before, after, split, isThere, by simpa using earlier⟩
    · rintro ⟨before, after, split, isThere, earlier⟩
      exact ⟨isThere, before, after, split, by simpa using earlier⟩
  constructor
  · intro path
    rw [← first]
    cases places.find? present <;> simp
  · intro text
    rw [← List.find?_eq_none]
    cases places.find? present <;> simp [eq_comm]

/-- The nearest path that a specifier can mean is found. A specifier that is blank or has a scheme
other than a drive is refused; what any other can mean is a list of paths, of which the first that
exists is taken, and only where none exists the search fails. -/
theorem nearest_candidate_is_found (present : Path → Bool) (specifier : String) (source : Path) :
    (Specifier.IsRefused specifier →
      locate .nearest present specifier source =
        .error "specifiers with a URL scheme cannot be resolved") ∧
      (∃ places, Specifier.CanMean source.directory specifier places) ∧
      ∀ places, Specifier.CanMean source.directory specifier places →
        ¬ Specifier.IsRefused specifier →
        IsFirst present places (Specifier.notFound source.directory specifier)
          (locate .nearest present specifier source) := by
  refine ⟨fun refused => ?_, Specifier.exists_canMean source.directory specifier, ?_⟩
  · rw [locate, if_neg (Specifier.isRefused_iff.mp refused)]
  · intro places means accepted
    have resolvable : Specifier.isResolvable specifier := by
      simpa [Specifier.isRefused_iff] using accepted
    rw [locate, if_pos resolvable, Specifier.candidates_eq means]
    exact isFirst_find? present places _

/-- A package in the directory above is found before the one at the root; a scheme is refused. -/
theorem nearer_package_is_found :
    let present (path : Path) : Bool :=
      path.text == "/app/node_modules/lib/c.css" || path.text == "/node_modules/lib/c.css"
    let source := Path.parse "/app/src/a.css"
    let places := source.directory.ancestors.map (Specifier.inPackages "lib/c.css")
    Specifier.IsRefused "data:x" ∧
      locate .nearest present "data:x" source =
        .error "specifiers with a URL scheme cannot be resolved" ∧
      Specifier.CanMean source.directory "~//lib/c.css" places ∧
      ¬ Specifier.IsRefused "~//lib/c.css" ∧
      IsFirst present places (Specifier.notFound source.directory "~//lib/c.css")
        (locate .nearest present "~//lib/c.css" source) ∧
      locate .nearest present "~//lib/c.css" source =
        .ok (Path.parse "/app/node_modules/lib/c.css") := by
  intro present source places
  have refused : Specifier.IsRefused "data:x" :=
    Specifier.isRefused_iff.mpr (by decide +kernel)
  have accepted : ¬ Specifier.IsRefused "~//lib/c.css" := by
    rw [Specifier.isRefused_iff]
    decide +kernel
  have means : Specifier.CanMean source.directory "~//lib/c.css" places :=
    @Specifier.CanMean.tilde source.directory "//" "lib/c.css" (by simp) (by decide)
  exact ⟨refused, (nearest_candidate_is_found present "data:x" source).1 refused, means, accepted,
    (nearest_candidate_is_found present "~//lib/c.css" source).2.2 places means accepted,
    by decide +kernel⟩

end Resolver

end ScopedStyles
