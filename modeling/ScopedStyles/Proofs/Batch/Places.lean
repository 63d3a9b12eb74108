import ScopedStyles.Batch.Tree

/-!
The place that a written path means. Dots and double dots are resolved name by name, a double dot at
the root staying there, so that the place is known without a look at the tree; a walk in the tree
that arrives at all arrives at this place. A relative path that never climbs above the directory it
starts from means the same part of every directory it is joined to.
-/

namespace ScopedStyles

namespace Path

theorem splitAt_eq_splitOn (separator : Char) (text : List Char) :
    splitAt separator text = text.splitOn separator := by
  induction text with
  | nil => rfl
  | cons character rest inductive_step =>
      rw [List.splitOn_cons_eq_if_modifyHead, splitAt, inductive_step]
      by_cases isSeparator : character = separator
      · simp [isSeparator]
      · rcases split : rest.splitOn separator with _ | ⟨first, others⟩
        · exact absurd split (List.splitOn_ne_nil separator rest)
        · simp [isSeparator]

theorem not_mem_of_mem_splitAt {separator : Char} {text part : List Char}
    (member : part ∈ splitAt separator text) : separator ∉ part := by
  induction text generalizing part with
  | nil => simp_all [splitAt]
  | cons character rest inductive_step =>
      rcases split : splitAt separator rest with _ | ⟨first, others⟩
      · exact absurd split (by simp [splitAt_eq_splitOn])
      · rw [split] at inductive_step
        rw [splitAt, split] at member
        by_cases isSeparator : character = separator
        · rw [if_pos isSeparator] at member
          rcases List.mem_cons.mp member with rfl | member
          · exact List.not_mem_nil
          · exact inductive_step member
        · rw [if_neg isSeparator] at member
          rcases List.mem_cons.mp member with rfl | member
          · have other : separator ≠ character := fun equal => isSeparator equal.symm
            exact List.not_mem_cons_of_ne_of_not_mem other (inductive_step List.mem_cons_self)
          · exact inductive_step (List.mem_cons_of_mem _ member)

end Path

namespace WrittenPath

/-! ## The parts of a written path -/

theorem parts_append_slash (before behind : String) :
    parts (before ++ "/" ++ behind) = parts before ++ parts behind := by
  have split := List.splitOn_append_cons_self (a := '/') before.toList behind.toList
  simp only [parts, Path.splitAt_eq_splitOn, String.toList_append, ← List.map_append]
  rw [← split]
  simp

theorem parts_of_not_mem {part : String} (plain : '/' ∉ part.toList) : parts part = [part] := by
  simp [parts, Path.splitAt_eq_splitOn, List.splitOn_eq_singleton plain]

theorem not_mem_of_mem_parts {path part : String} (member : part ∈ parts path) :
    '/' ∉ part.toList := by
  obtain ⟨characters, among, rfl⟩ := List.mem_map.mp member
  rw [String.toList_ofList]
  exact Path.not_mem_of_mem_splitAt among

theorem parts_intercalate {names : List String} (nonempty : names ≠ [])
    (plain : ∀ name ∈ names, '/' ∉ name.toList) :
    parts (String.intercalate "/" names) = names := by
  have plainTexts : ∀ text ∈ names.map String.toList, '/' ∉ text := by
    simpa using plain
  have split := List.splitOn_intercalate '/' plainTexts (by simpa using nonempty)
  simp only [parts, Path.splitAt_eq_splitOn, String.toList_intercalate]
  rw [show "/".toList = ['/'] from rfl, split]
  simp

theorem intercalate_parts (path : String) : String.intercalate "/" (parts path) = path := by
  simp [parts, Path.splitAt_eq_splitOn, ← String.toList_inj, String.toList_intercalate,
    Function.comp_def, List.intercalate_splitOn]

theorem parts_append {path extension last : String} {front : List String}
    (split : parts path = front ++ [last]) (plain : '/' ∉ extension.toList) :
    parts (path ++ extension) = front ++ [last ++ extension] := by
  have member : last ∈ parts path := by simp [split]
  have plainLast : '/' ∉ last.toList := not_mem_of_mem_parts member
  have plainLonger : '/' ∉ (last ++ extension).toList := by simp [plainLast, plain]
  have whole : path = String.intercalate "/" (front ++ [last]) := by
    rw [← split, intercalate_parts]
  by_cases alone : front = []
  · subst alone
    rw [show path = last by simpa using whole]
    exact parts_of_not_mem plainLonger
  · rw [whole, String.intercalate_append_of_ne_nil alone (by simp), String.intercalate_singleton,
      String.append_assoc, parts_append_slash, parts_of_not_mem plainLonger,
      parts_intercalate alone]
    intro name member
    exact not_mem_of_mem_parts (split ▸ List.mem_append_left _ member)

def names (parts : List String) : List String :=
  parts.filter (!isIdle ·)

@[simp] theorem names_append (front back : List String) :
    names (front ++ back) = names front ++ names back :=
  List.filter_append ..

theorem names_cons_of_idle {part : String} (idle : isIdle part) (rest : List String) :
    names (part :: rest) = names rest := by
  simp [names, idle]

theorem names_dropWhile_isIdle (parts : List String) :
    names (parts.dropWhile isIdle) = names parts := by
  induction parts with
  | nil => rfl
  | cons part rest inductive_step =>
      by_cases idle : isIdle part
      · rw [List.dropWhile_cons_of_pos idle, names_cons_of_idle idle, inductive_step]
      · rw [List.dropWhile_cons_of_neg idle]

theorem names_trimEnd (parts : List String) : names (trimEnd parts) = names parts := by
  have reversed : ∀ texts : List String, names texts.reverse = (names texts).reverse :=
    fun texts => List.filter_reverse ..
  rw [trimEnd, reversed, names_dropWhile_isIdle, ← reversed, List.reverse_reverse]

theorem prefix_trimEnd (parts : List String) : trimEnd parts <+: parts := by
  rw [trimEnd, ← List.reverse_suffix, List.reverse_reverse]
  exact List.dropWhile_suffix isIdle

theorem suffix_dropSteps (count : Nat) (parts : List String) :
    dropSteps count parts <:+ parts := by
  induction count generalizing parts with
  | zero => exact List.suffix_refl parts
  | succ count inductive_step =>
      exact (inductive_step _).trans
        ((List.drop_suffix 1 _).trans (List.dropWhile_suffix isIdle))

theorem names_dropSteps (count : Nat) (parts : List String) :
    names (dropSteps count parts) = (names parts).drop count := by
  induction count generalizing parts with
  | zero => rfl
  | succ count inductive_step =>
      rw [dropSteps, inductive_step, ← names_dropWhile_isIdle parts]
      rcases split : parts.dropWhile isIdle with _ | ⟨first, rest⟩
      · simp [names]
      · have proper : isIdle first = false := by
          have head := List.head?_dropWhile_not isIdle parts
          simpa [split] using head
        simp [names, proper]

/-- The last part that is left when idle parts are cut off is a step. -/
theorem isIdle_of_trimEnd {parts front : List String} {last : String}
    (split : trimEnd parts = front ++ [last]) : isIdle last = false := by
  have head := List.head?_dropWhile_not isIdle parts.reverse
  have reversed := congrArg List.reverse split
  rw [trimEnd, List.reverse_reverse] at reversed
  simpa [reversed] using head

theorem parts_of_isAbsolute {path : String} (absolute : isAbsolute path) :
    ∃ body, parts path = "" :: body ∧ cutLead path = (some .root, body) := by
  obtain ⟨rest, written⟩ : ∃ rest, path.toList = '/' :: rest := by
    rcases characters : path.toList with _ | ⟨first, rest⟩
    · simp [isAbsolute, characters] at absolute
    · simp only [isAbsolute, characters, List.head?_cons] at absolute
      exact ⟨rest, by simp_all⟩
  have split : parts path = "" :: (Path.splitAt '/' rest).map String.ofList := by
    simp [parts, written, Path.splitAt]
  exact ⟨_, split, by simp [cutLead, split, absolute]⟩

theorem stepOf_injective : Function.Injective stepOf := by
  intro left right equal
  unfold stepOf at equal
  split at equal <;> split at equal <;> simp_all

theorem steps_of_isAbsolute {path : String} (absolute : isAbsolute path) :
    steps path = .root :: (names (parts path)).map stepOf := by
  obtain ⟨body, split, lead⟩ := parts_of_isAbsolute absolute
  rw [steps, lead, split, names_cons_of_idle rfl]
  rfl

/-! ## Places -/

/-- Go from a place to what a part of a written path means there. -/
def settle (place : Place) (part : String) : Place :=
  if isIdle part then place else if part = ".." then place.dropLast else place ++ [part]

/-- The place that an absolute written path means, and that a relative one means at the root. -/
def place (path : String) : Place :=
  (parts path).foldl settle []

theorem settle_of_isIdle {part : String} (idle : isIdle part) (place : Place) :
    settle place part = place :=
  if_pos idle

theorem foldl_settle_names (start : Place) (parts : List String) :
    (names parts).foldl settle start = parts.foldl settle start := by
  induction parts generalizing start with
  | nil => rfl
  | cons part rest inductive_step =>
      by_cases idle : isIdle part
      · rw [names_cons_of_idle idle, List.foldl_cons, settle_of_isIdle idle, inductive_step]
      · simp [names, idle, ← inductive_step]

theorem place_append_slash (before behind : String) :
    place (before ++ "/" ++ behind) = (parts behind).foldl settle (place before) := by
  rw [place, parts_append_slash, List.foldl_append]
  rfl

theorem place_join {relative : String} (isRelative : isAbsolute relative = false)
    (base : String) :
    place (join base relative) = (parts relative).foldl settle (place base) := by
  by_cases empty : base.isEmpty
  · rw [String.isEmpty_iff] at empty
    subst empty
    simp [join, place, parts, Path.splitAt, settle, isIdle]
  · by_cases closed : base.toList.getLast? = some '/'
    · obtain ⟨characters, written⟩ := List.getLast?_eq_some_iff.mp closed
      have spelled : base = String.ofList characters ++ "/" := by
        rw [← String.toList_inj, String.toList_append, written]
        simp
      have trailing : place (String.ofList characters ++ "/") = place (String.ofList characters) := by
        have appended := place_append_slash (String.ofList characters) ""
        simpa [parts, Path.splitAt, settle, isIdle] using appended
      have joined : join base relative = base ++ relative := by
        simp [join, isRelative, empty, closed]
      rw [joined, spelled, place_append_slash, trailing]
    · have joined : join base relative = base ++ "/" ++ relative := by
        simp [join, isRelative, empty, closed]
      rw [joined, place_append_slash]

theorem isAbsolute_append {path : String} (filled : path ≠ "") (extension : String) :
    isAbsolute (path ++ extension) = isAbsolute path := by
  rcases characters : path.toList with _ | ⟨first, rest⟩
  · exact absurd (String.toList_inj.mp (characters.trans rfl)) filled
  · simp [isAbsolute, characters]

theorem join_append {relative : String} (filled : relative ≠ "") (base extension : String) :
    join base relative ++ extension = join base (relative ++ extension) := by
  simp only [join, isAbsolute_append filled]
  split
  · rfl
  · split <;> simp [String.append_assoc]

/-! ## Staying inside a directory -/

/-- Go to what a part means without climbing above the place that the walk started from, which is
the empty one. -/
def settleInside? (inner : Place) (part : String) : Option Place :=
  if isIdle part then some inner
  else if part = ".." then if inner.isEmpty then none else some inner.dropLast
  else some (inner ++ [part])

/-- What a relative path means below the directory it is joined to, if it stays inside. -/
def inner? (relative : String) : Option Place :=
  (parts relative).foldlM settleInside? []

theorem settle_of_settleInside? {inner after : Place} {part : String}
    (inside : settleInside? inner part = some after) (base : Place) :
    settle (base ++ inner) part = base ++ after := by
  unfold settleInside? at inside
  split at inside
  · case isTrue idle =>
      cases inside
      exact settle_of_isIdle idle _
  · case isFalse proper =>
      split at inside
      · case isTrue up =>
          split at inside
          · cases inside
          · case isFalse nonempty =>
              cases inside
              have filled : inner ≠ [] := by simpa using nonempty
              rw [settle, if_neg proper, if_pos up]
              exact List.dropLast_append_of_ne_nil filled
      · case isFalse down =>
          cases inside
          rw [settle, if_neg proper, if_neg down, List.append_assoc]

theorem foldl_settle_of_inside {inner after : Place} {parts : List String}
    (inside : parts.foldlM settleInside? inner = some after) (base : Place) :
    parts.foldl settle (base ++ inner) = base ++ after := by
  induction parts generalizing inner with
  | nil =>
      cases inside
      rfl
  | cons part rest inductive_step =>
      obtain ⟨next, taken, walked⟩ := Option.bind_eq_some_iff.mp inside
      rw [List.foldl_cons, settle_of_settleInside? taken]
      exact inductive_step walked

theorem foldl_settle_of_inner? {relative : String} {inner : Place}
    (inside : inner? relative = some inner) (base : Place) :
    (parts relative).foldl settle base = base ++ inner := by
  simpa using foldl_settle_of_inside inside base

/-- A relative path that stays inside means the same part of every directory. -/
theorem place_join_of_inner? {relative : String} {inner : Place}
    (isRelative : isAbsolute relative = false) (inside : inner? relative = some inner)
    (base : String) : place (join base relative) = place base ++ inner := by
  rw [place_join isRelative, foldl_settle_of_inner? inside]

theorem foldlM_settleInside?_of_not_mem {parts : List String} (plain : ".." ∉ parts)
    (inner : Place) : parts.foldlM settleInside? inner = some (inner ++ names parts) := by
  induction parts generalizing inner with
  | nil => simp [names]
  | cons part rest inductive_step =>
      have notUp := List.ne_of_not_mem_cons plain
      have plainRest := List.not_mem_of_not_mem_cons plain
      rw [List.foldlM_cons]
      by_cases idle : isIdle part
      · rw [names_cons_of_idle idle, settleInside?, if_pos idle]
        exact inductive_step plainRest inner
      · rw [settleInside?, if_neg idle, if_neg (Ne.symm notUp)]
        refine (inductive_step plainRest (inner ++ [part])).trans ?_
        simp [names, idle]

/-- Whether a part names an entry of a directory. -/
def isEntry (part : String) : Bool :=
  !isIdle part && part != ".."

theorem isEntry_iff (part : String) : isEntry part ↔ isIdle part = false ∧ part ≠ ".." := by
  simp [isEntry]

theorem isEntry_of_length {part : String} (long : 2 < part.length) : isEntry part := by
  rw [isEntry_iff]
  constructor
  · rw [← Bool.not_eq_true]
    intro idle
    simp only [isIdle, Bool.or_eq_true, beq_iff_eq] at idle
    rcases idle with rfl | rfl <;> exact absurd long (by decide)
  · rintro rfl
    exact absurd long (by decide)

/-- The last part of a path names an entry. -/
def EndsIn (path name : String) : Prop :=
  isEntry name ∧ ∃ front, parts path = front ++ [name]

theorem endsIn_of_isEntry {name : String} (entry : isEntry name) (plain : '/' ∉ name.toList) :
    EndsIn name name :=
  ⟨entry, [], parts_of_not_mem plain⟩

theorem EndsIn.not_mem {path name : String} (ends : EndsIn path name) : '/' ∉ name.toList := by
  obtain ⟨_, front, split⟩ := ends
  have member : name ∈ parts path := by simp [split]
  exact not_mem_of_mem_parts member

theorem EndsIn.append {path name extension : String} (ends : EndsIn path name)
    (plain : '/' ∉ extension.toList) (long : 2 < extension.length) :
    EndsIn (path ++ extension) (name ++ extension) := by
  obtain ⟨_, front, split⟩ := ends
  have longer : 2 < (name ++ extension).length := by
    rw [String.length_append]
    omega
  exact ⟨isEntry_of_length longer, front, parts_append split plain⟩

theorem EndsIn.fileName? {path name : String} (ends : EndsIn path name)
    (absolute : isAbsolute path) : fileName? path = some name := by
  obtain ⟨entry, front, split⟩ := ends
  obtain ⟨proper, notUp⟩ := (isEntry_iff name).mp entry
  have named : steps path = (.root :: (names front).map stepOf) ++ [.name name] := by
    rw [steps_of_isAbsolute absolute, split]
    simp [names, proper, stepOf, notUp]
  rw [WrittenPath.fileName?, named, List.getLast?_concat]

theorem settleInside?_of_isEntry {part : String} (entry : isEntry part) (inner : Place) :
    settleInside? inner part = some (inner ++ [part]) := by
  obtain ⟨proper, notUp⟩ := (isEntry_iff part).mp entry
  simp [settleInside?, proper, notUp]

theorem inner?_of_isEntry {name : String} (entry : isEntry name) (plain : '/' ∉ name.toList) :
    inner? name = some [name] := by
  rw [inner?, parts_of_not_mem plain, List.foldlM_cons, settleInside?_of_isEntry entry]
  rfl

/-- Lengthening the last name of a path that stays inside changes nothing else. -/
theorem EndsIn.inner?_append {path name extension : String} {inner : Place}
    (ends : EndsIn path name) (plain : '/' ∉ extension.toList) (long : 2 < extension.length)
    (inside : inner? path = some inner) :
    ∃ front, inner = front ++ [name] ∧
      inner? (path ++ extension) = some (front ++ [name ++ extension]) := by
  have longer := (ends.append plain long).1
  obtain ⟨entry, front, split⟩ := ends
  have lengthened := parts_append split plain
  rw [inner?, split, List.foldlM_append] at inside
  obtain ⟨above, walked, named⟩ := Option.bind_eq_some_iff.mp inside
  rw [List.foldlM_cons, settleInside?_of_isEntry entry] at named
  cases named
  refine ⟨above, rfl, ?_⟩
  rw [inner?, lengthened, List.foldlM_append, walked]
  simp [settleInside?_of_isEntry longer]

/-! ## What follows a base -/

/-- The parts that follow a number of steps, without idle ones at either end. -/
def following (count : Nat) (parts : List String) : List String :=
  trimEnd ((dropSteps count parts).dropWhile isIdle)

theorem names_following (count : Nat) (parts : List String) :
    names (following count parts) = (names parts).drop count := by
  rw [following, names_trimEnd, names_dropWhile_isIdle, names_dropSteps]

theorem mem_of_mem_following {count : Nat} {parts : List String} {part : String}
    (member : part ∈ following count parts) : part ∈ parts :=
  (suffix_dropSteps count parts).subset
    ((List.dropWhile_suffix isIdle).subset ((prefix_trimEnd _).subset member))

theorem isIdle_head_following {count : Nat} {parts : List String} {first : String}
    {rest : List String} (split : following count parts = first :: rest) :
    isIdle first = false := by
  obtain ⟨idleEnd, whole⟩ := prefix_trimEnd ((dropSteps count parts).dropWhile isIdle)
  have head := List.head?_dropWhile_not isIdle (dropSteps count parts)
  rw [← whole, show trimEnd _ = first :: rest from split] at head
  simpa using head

theorem behind?_eq {base path relative : String} {body : List String}
    (absoluteBase : isAbsolute base) (absolute : isAbsolute path)
    (split : parts path = "" :: body) (behind : behind? base path = some relative) :
    names body = names (parts base) ++ names (following (names (parts base)).length body) ∧
      relative = String.intercalate "/" (following (names (parts base)).length body) := by
  have lead : cutLead path = (some .root, body) := by
    obtain ⟨others, same, lead⟩ := parts_of_isAbsolute absolute
    rw [split] at same
    cases same
    exact lead
  have namesBody : names (parts path) = names body := by
    rw [split, names_cons_of_idle rfl]
  rw [behind?, lead, steps_of_isAbsolute absoluteBase, steps_of_isAbsolute absolute, namesBody]
    at behind
  simp only [List.length_cons, List.length_map, Nat.add_one_ne_zero, if_false, List.take_succ_cons,
    List.cons.injEq, true_and, Option.toList_some, List.length_nil, Nat.zero_add,
    Nat.add_sub_cancel, Option.ite_none_right_eq_some, Option.some.injEq] at behind
  obtain ⟨begins, written⟩ := behind
  rw [← List.map_take] at begins
  have shared := (List.map_inj_right fun _ _ equal => stepOf_injective equal).mp begins
  refine ⟨?_, written.symm⟩
  rw [names_following]
  calc names body
      = (names body).take (names (parts base)).length ++
          (names body).drop (names (parts base)).length := (List.take_append_drop ..).symm
    _ = names (parts base) ++ (names body).drop (names (parts base)).length := by rw [shared]

/-- What follows an absolute base has the names of the path that the base does not have, in a
relative spelling that ends as the path does. -/
theorem behind?_of_isAbsolute {base path relative : String} (absoluteBase : isAbsolute base)
    (absolute : isAbsolute path) (behind : behind? base path = some relative) :
    isAbsolute relative = false ∧
      names (parts path) = names (parts base) ++ names (parts relative) ∧
      (relative = "" ∨ ∀ name, EndsIn path name → EndsIn relative name) := by
  obtain ⟨body, split, -⟩ := parts_of_isAbsolute absolute
  obtain ⟨shared, written⟩ := behind?_eq absoluteBase absolute split behind
  rw [split, names_cons_of_idle rfl]
  rcases rest : following (names (parts base)).length body with _ | ⟨first, others⟩
  · rw [rest] at shared written
    have empty : relative = "" := by simpa using written
    subst empty
    exact ⟨rfl, shared, .inl rfl⟩
  · have plain : ∀ name ∈ first :: others, '/' ∉ name.toList := by
      intro name member
      rw [← rest] at member
      exact not_mem_of_mem_parts
        (split ▸ List.mem_cons_of_mem _ (mem_of_mem_following member))
    have spelled : parts relative = first :: others := by
      rw [written, rest, parts_intercalate (by simp) plain]
    refine ⟨?_, ?_, .inr ?_⟩
    · rw [← Bool.not_eq_true]
      intro leading
      obtain ⟨_, rooted, -⟩ := parts_of_isAbsolute leading
      rw [spelled] at rooted
      cases rooted
      exact absurd (isIdle_head_following rest) (by decide)
    · rw [spelled, ← rest, shared]
    · rintro name ⟨entry, front, ending⟩
      obtain ⟨proper, -⟩ := (isEntry_iff name).mp entry
      obtain ⟨kept, last, ended⟩ : ∃ kept last, first :: others = kept ++ [last] :=
        ⟨_, _, (List.dropLast_concat_getLast (List.cons_ne_nil first others)).symm⟩
      have properLast : isIdle last = false := isIdle_of_trimEnd (rest.trans ended)
      have both : (names (parts base) ++ names kept) ++ [last] = names front ++ [name] := by
        have namesBody : names body = names front ++ [name] := by
          rw [← names_cons_of_idle (rfl : isIdle "" = true) body, ← split, ending, names_append]
          simp [names, proper]
        rw [← namesBody, shared, rest, ended, names_append]
        simp [names, properLast]
      obtain ⟨-, same⟩ := List.append_inj' both rfl
      cases same
      exact ⟨entry, kept, by rw [spelled, ended]⟩

end WrittenPath

end ScopedStyles
