import ScopedStyles.Proofs.Batch.Places

/-!
Trees in which nothing is both a file and a directory. Trees that are made by writing files are such
trees. In them a path that leads to a file ends in the name of the file, and it leads to the place
that it means.
-/

namespace ScopedStyles

namespace Tree

open WrittenPath (settle isIdle isEntry EndsIn)

/-! ## Walks -/

theorem settle_of_step? {tree : Tree} {place next : Place} {part : String}
    (taken : tree.step? place part = some next) : next = settle place part := by
  unfold step? at taken
  unfold settle
  repeat' split at taken
  all_goals simp_all

theorem foldl_settle_of_steps {tree : Tree} {place reached : Place} {parts : List String}
    (walked : parts.foldlM tree.step? place = some reached) :
    reached = parts.foldl settle place := by
  induction parts generalizing place with
  | nil =>
      cases walked
      rfl
  | cons part rest inductive_step =>
      obtain ⟨next, taken, walked⟩ := Option.bind_eq_some_iff.mp walked
      rw [inductive_step walked, settle_of_step? taken, List.foldl_cons]

theorem isAbsolute_of_find? {tree : Tree} {path : String} {reached : Place}
    (found : tree.find? path = some reached) : WrittenPath.isAbsolute path := by
  unfold find? at found
  split at found
  · assumption
  · cases found

theorem find?_eq_place {tree : Tree} {path : String} {reached : Place}
    (found : tree.find? path = some reached) : reached = WrittenPath.place path := by
  have absolute := isAbsolute_of_find? found
  obtain ⟨body, split, -⟩ := WrittenPath.parts_of_isAbsolute absolute
  rw [find?, if_pos absolute, split] at found
  rw [foldl_settle_of_steps found, WrittenPath.place, split, List.foldl_cons,
    WrittenPath.settle_of_isIdle rfl]
  rfl

/-! ## Sound trees -/

/-- Nothing is both a file and a directory. -/
def IsSound (tree : Tree) : Prop :=
  ∀ place, tree.hasFile place → tree.hasDirectory place = false

theorem IsSound.addDirectory {tree : Tree} (sound : tree.IsSound) {place : Place}
    (free : tree.hasFile place = false) : (tree.addDirectory place).IsSound := by
  unfold Tree.addDirectory
  split
  · exact sound
  · intro other isFile
    have noDirectory := sound other isFile
    have different : other ≠ place := by
      rintro rfl
      exact Bool.false_ne_true (free.symm.trans isFile)
    simp_all [hasDirectory]

theorem IsSound.makeStep? {tree made : Tree} {place reached : Place} {part : String}
    (sound : tree.IsSound) (taken : makeStep? (tree, place) part = some (made, reached)) :
    made.IsSound := by
  by_cases idle : isIdle part
  · obtain ⟨rfl, -⟩ : tree = made ∧ place = reached := by
      simpa [Tree.makeStep?, idle] using taken
    exact sound
  · by_cases up : part = ".."
    · obtain ⟨rfl, -⟩ : tree = made ∧ place.dropLast = reached := by
        simpa [Tree.makeStep?, isIdle, up] using taken
      exact sound
    · by_cases occupied : tree.hasFile (place ++ [part])
      · simp [Tree.makeStep?, idle, up, occupied] at taken
      · obtain ⟨rfl, -⟩ :
            tree.addDirectory (place ++ [part]) = made ∧ place ++ [part] = reached := by
          simpa [Tree.makeStep?, idle, up, occupied] using taken
        exact sound.addDirectory (by simpa using occupied)

theorem IsSound.foldlM_makeStep? {tree made : Tree} {place reached : Place} {parts : List String}
    (sound : tree.IsSound)
    (walked : parts.foldlM Tree.makeStep? (tree, place) = some (made, reached)) :
    made.IsSound := by
  induction parts generalizing tree place with
  | nil =>
      cases walked
      exact sound
  | cons part rest inductive_step =>
      obtain ⟨⟨next, there⟩, taken, walked⟩ := Option.bind_eq_some_iff.mp walked
      exact inductive_step (sound.makeStep? taken) walked

theorem IsSound.makeDirectories? {tree made : Tree} {path : String} (sound : tree.IsSound)
    (success : tree.makeDirectories? path = some made) : made.IsSound := by
  obtain ⟨⟨next, there⟩, walked, rfl⟩ := Option.map_eq_some_iff.mp success
  exact sound.foldlM_makeStep? walked

theorem IsSound.insert {tree : Tree} (sound : tree.IsSound) {place : Place}
    (free : tree.hasDirectory place = false) (content : String) :
    IsSound { tree with files := tree.files.insert place content } := by
  intro other isFile
  change tree.hasDirectory other = false
  by_cases same : other = place
  · rw [same]
    exact free
  · refine sound other ?_
    simpa [hasFile, OrderedMap.contains, OrderedMap.get?_insert_of_ne _ same] using isFile

theorem IsSound.write? {tree written : Tree} {path content : String} (sound : tree.IsSound)
    (success : tree.write? path content = some written) : written.IsSound := by
  simp only [Tree.write?] at success
  split at success
  · case h_1 place name _ _ =>
      split at success
      · cases success
      · case isFalse free =>
          cases success
          simp only [Bool.or_eq_true, not_or, Bool.not_eq_true] at free
          exact sound.insert free.2 content
  · cases success

theorem IsSound.store {tree : Tree} (sound : tree.IsSound) (path content : String) :
    (tree.store path content).IsSound := by
  unfold Tree.store
  rcases stored : ((WrittenPath.parent? path).bind tree.makeDirectories?).bind
      (·.write? path content) with _ | written
  · exact sound
  · obtain ⟨made, directories, success⟩ := Option.bind_eq_some_iff.mp stored
    obtain ⟨parent, -, directories⟩ := Option.bind_eq_some_iff.mp directories
    exact (sound.makeDirectories? directories).write? success

theorem isSound_empty : empty.IsSound :=
  fun place isFile => absurd isFile (by simp [hasFile, empty])

theorem isSound_ofList (files : List (String × String)) : (ofList files).IsSound := by
  suffices kept : ∀ tree : Tree, tree.IsSound →
      (files.foldl (fun tree file => tree.store file.1 file.2) tree).IsSound from
    kept empty isSound_empty
  induction files with
  | nil => exact fun _ sound => sound
  | cons file rest induction =>
    exact fun tree sound => induction _ (sound.store file.1 file.2)

/-! ## Paths of files -/

/-- All places above a place are directories. -/
def Reaches (tree : Tree) (place : Place) : Prop :=
  ∀ above, above <+: place → above ≠ place → tree.hasDirectory above

theorem reaches_root {tree : Tree} : tree.Reaches [] :=
  fun _ shorter different => absurd (List.prefix_nil.mp shorter) different

theorem hasDirectory_of_step? {tree : Tree} {place next : Place} {part : String}
    (taken : tree.step? place part = some next) : tree.hasDirectory place := by
  unfold step? at taken
  split at taken
  · cases taken
  · simp_all

theorem Reaches.dropLast {tree : Tree} {place : Place} (reaches : tree.Reaches place) :
    tree.hasDirectory place.dropLast ∧ tree.Reaches place.dropLast := by
  rcases place.eq_nil_or_concat with rfl | ⟨front, last, rfl⟩
  · exact ⟨rfl, reaches⟩
  · rw [List.concat_eq_append] at reaches ⊢
    rw [List.dropLast_concat]
    have shorter : front ≠ front ++ [last] := by simp
    refine ⟨reaches front (List.prefix_append front [last]) shorter, fun above begins _ => ?_⟩
    refine reaches above (begins.trans (List.prefix_append front [last])) ?_
    rintro rfl
    exact absurd begins.length_le (by simp)

theorem Reaches.step? {tree : Tree} {place next : Place} {part : String}
    (reaches : tree.Reaches place) (taken : tree.step? place part = some next) :
    tree.Reaches next := by
  have directory := hasDirectory_of_step? taken
  rw [settle_of_step? taken, settle]
  split
  · exact reaches
  · split
    · exact reaches.dropLast.2
    · intro above shorter different
      rcases List.prefix_concat_iff.mp shorter with rfl | shorter
      · exact absurd rfl different
      · by_cases same : above = place
        · exact same ▸ directory
        · exact reaches above shorter same

theorem Reaches.steps {tree : Tree} {place reached : Place} {parts : List String}
    (reaches : tree.Reaches place) (walked : parts.foldlM tree.step? place = some reached) :
    tree.Reaches reached := by
  induction parts generalizing place with
  | nil =>
      cases walked
      exact reaches
  | cons part rest inductive_step =>
      obtain ⟨next, taken, walked⟩ := Option.bind_eq_some_iff.mp walked
      exact inductive_step (reaches.step? taken) walked

theorem find?_of_isFile {tree : Tree} {path : String} (isFile : tree.isFile path) :
    ∃ reached, tree.find? path = some reached ∧ tree.hasFile reached := by
  simp only [Tree.isFile] at isFile
  cases found : tree.find? path with
  | none => simp [found] at isFile
  | some reached => exact ⟨reached, rfl, by simpa [found] using isFile⟩

theorem IsSound.endsIn_of_isFile {tree : Tree} {path : String} (sound : tree.IsSound)
    (isFile : tree.isFile path) : WrittenPath.isAbsolute path ∧ ∃ name, EndsIn path name := by
  obtain ⟨reached, found, occupied⟩ := find?_of_isFile isFile
  have absolute := isAbsolute_of_find? found
  have noDirectory := sound reached occupied
  refine ⟨absolute, ?_⟩
  obtain ⟨body, split, -⟩ := WrittenPath.parts_of_isAbsolute absolute
  rw [find?, if_pos absolute, split] at found
  rcases body.eq_nil_or_concat with rfl | ⟨front, last, rfl⟩
  · cases found
    exact absurd noDirectory (by simp [hasDirectory])
  · rw [List.concat_eq_append] at found split
    change (front ++ [last]).foldlM tree.step? [] = some reached at found
    rw [List.foldlM_append] at found
    obtain ⟨place, walked, taken⟩ := Option.bind_eq_some_iff.mp found
    have taken : tree.step? place last = some reached := by simpa using taken
    have above := Reaches.steps reaches_root walked
    refine ⟨last, (WrittenPath.isEntry_iff last).mpr ⟨?_, ?_⟩, "" :: front, split⟩
    · rw [← Bool.not_eq_true]
      intro idle
      rw [settle_of_step? taken, settle, if_pos idle, hasDirectory_of_step? taken] at noDirectory
      exact Bool.noConfusion noDirectory
    · rintro rfl
      rw [settle_of_step? taken, settle, if_neg (by decide), if_pos rfl, above.dropLast.1]
        at noDirectory
      exact Bool.noConfusion noDirectory

end Tree

end ScopedStyles
