import ScopedStyles.Proofs.Composition.Following
import ScopedStyles.Proofs.Graph.Accounting

/-!
Where the states of a project's files come from: whatever is known about a file in the course of a
run has developed from what was collected from its text. So a file asks for nothing that its text
does not ask for, and no name waits that its text does not let wait.
-/

namespace ScopedStyles.Project

open ScopedStyles.Graph

variable {project : Project} {graph after : Graph} {path target : Path} {doomed : Prop}

/-- What is collected from the text of a file. -/
def collected (project : Project) (path : Path) : ModuleState :=
  (project.workspace.collection path (project.text path)).2.state

/-- The graph in which the root has been opened. -/
def opened (project : Project) : Graph :=
  Graph.empty.opening project.workspace project.root project.source

/-- The states of all files have developed from their texts. -/
structure Grows (project : Project) (graph : Graph) : Prop where
  rooted : graph.has project.root
  develops : ∀ path slot, graph.slots.get? (.file path) = some slot →
    (project.collected path).Develops (fun _ => False) slot.state

theorem grows_opened (project : Project) : project.Grows project.opened where
  rooted := (has_opening ..).mpr (.inl rfl)
  develops path slot found := by
    rw [opened, get?_opening] at found
    split at found
    · rename_i isRoot
      cases isRoot
      cases found
      rw [collected, text, if_pos rfl]
      exact .refl
    · cases found

theorem Grows.step (grows : project.Grows graph)
    (step : graph.Step project.workspace doomed after) : project.Grows after where
  rooted := Steps.has (.single step) grows.rooted
  develops path slot found := by
    cases earlier : graph.slots.get? (.file path) with
    | some before =>
      obtain ⟨later, foundLater, becomes⟩ := step.becomes earlier
      cases foundLater.symm.trans found
      exact (grows.develops path before earlier).trans becomes.state
    | none =>
      obtain ⟨_, source, isFile, readable, _, rfl⟩ := step.added earlier found
      cases isFile
      rw [collected, text_of_read (ne_root_of_absent grows.rooted earlier) readable]
      exact .refl

theorem Grows.steps (grows : project.Grows graph)
    (steps : graph.Steps project.workspace doomed after) : project.Grows after :=
  steps.keeps (fun step grows => grows.step step) grows

/-! ## Files that require each other -/

/-- The text of a file can be collected, and asks for another file. -/
def Requires (project : Project) (path target : Path) : Prop :=
  (∃ sheet, (project.workspace.collection path (project.text path)).1 = .ok sheet) ∧
    ∃ specifier ∈ (project.collected path).askedFor,
      project.workspace.resolver.resolve project.workspace.files specifier path = .ok target

/-- No file loads itself, directly or through others. -/
def Acyclic (project : Project) : Prop :=
  ∀ path, ¬ Relation.TransGen project.Requires path path

/-- The texts of all files can be collected. -/
structure Collects (project : Project) (graph : Graph) : Prop extends project.Grows graph where
  collects : ∀ path, graph.has path →
    ∃ sheet, (project.workspace.collection path (project.text path)).1 = .ok sheet

theorem collects_opened {sheet : Stylesheet}
    (collects : (project.workspace.collection project.root project.source).1 = .ok sheet) :
    project.Collects project.opened where
  toGrows := project.grows_opened
  collects path known := by
    obtain rfl | none := (has_opening ..).mp known
    · rw [text, if_pos rfl]
      exact ⟨sheet, collects⟩
    · cases none

theorem Collects.step (collects : project.Collects graph)
    (step : graph.Step project.workspace False after) : project.Collects after where
  toGrows := collects.toGrows.step step
  collects path known := by
    obtain ⟨slot, found⟩ := (OrderedMap.contains_iff_get? _ _).mp known
    cases earlier : graph.slots.get? (.file path) with
    | some before =>
      exact collects.collects path ((OrderedMap.contains_iff_get? _ _).mpr ⟨before, earlier⟩)
    | none =>
      obtain ⟨_, source, isFile, readable, whole, _⟩ := step.added earlier found
      cases isFile
      rw [text_of_read (ne_root_of_absent collects.rooted earlier) readable]
      exact whole.resolve_left id

theorem Collects.steps (collects : project.Collects graph)
    (steps : graph.Steps project.workspace False after) : project.Collects after :=
  steps.keeps (fun step collects => collects.step step) collects

theorem Collects.requires (collects : project.Collects graph)
    (needs : graph.Needs project.workspace path target) : project.Requires path target := by
  obtain ⟨specifier, asks, means⟩ := needs
  obtain ⟨slot, found⟩ := slot_of_askedFor asks
  have known : graph.has path := (OrderedMap.contains_iff_get? _ _).mpr ⟨slot, found⟩
  have same := (collects.develops path slot found).sameDeclarations
  rw [stateAt_of_get? found, same.askedFor] at asks
  exact ⟨collects.collects path known, specifier, asks, means⟩

theorem parse_of_unknown (different : path ≠ project.root)
    (unknown : project.workspace.files.contents.get? path = none) :
    parse (project.text path) = [] := by
  have blank : project.text path = "" := by
    rw [text, if_neg different, Files.read, unknown]
    rfl
  rw [blank]
  decide +kernel

theorem declared_of_unknown (different : path ≠ project.root)
    (unknown : project.workspace.files.contents.get? path = none) :
    project.declared path = .empty := by
  rw [declared, parse_of_unknown different unknown]
  rfl

theorem askedFor_of_unknown (different : path ≠ project.root)
    (unknown : project.workspace.files.contents.get? path = none) :
    (project.collected path).askedFor = [] := by
  rw [collected, Workspace.collection, parse_of_unknown different unknown]
  rfl

/-- Files do not load each other in a circle if what a file loads ranks lower. It is enough to look
at the root and at the files that can be read. -/
theorem acyclic_of_file_rank (rank : Path → Nat)
    (down : ∀ path ∈ project.root :: project.workspace.files.contents.keys,
      ∀ specifier ∈ (project.collected path).askedFor,
        ∀ target ∈ (project.workspace.resolver.resolve project.workspace.files specifier
          path).toOption, rank target < rank path) : project.Acyclic := by
  have step : ∀ path target, project.Requires path target → rank path > rank target := by
    rintro path target ⟨_, specifier, asks, means⟩
    refine down path ?_ specifier asks target (by rw [means]; rfl)
    by_contra unknown
    rw [List.mem_cons, not_or, ← OrderedMap.contains_iff_mem_keys, OrderedMap.contains,
      Option.not_isSome_iff_eq_none] at unknown
    rw [askedFor_of_unknown unknown.1 unknown.2] at asks
    cases asks
  intro path circle
  have descends : Relation.TransGen (· > ·) (rank path) (rank path) := circle.lift rank step
  rw [Relation.transGen_eq_self] at descends
  exact Nat.lt_irrefl _ descends

end ScopedStyles.Project
