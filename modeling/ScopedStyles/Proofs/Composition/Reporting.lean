import ScopedStyles.Proofs.Composition.Cycles

/-!
When a reported cycle is a cycle of compositions: where names that ask for each other in a cycle
compose each other, and so in all projects whose files do not compose from each other in cycles. A
name that waits for a file, and is composed by another owner of that file, is reported as well.
-/

namespace ScopedStyles

namespace Project

variable (project : Project)

/-- Names that ask for each other in a cycle compose each other. -/
def CyclesCompose : Prop :=
  ∀ owner other, project.Asks owner other → Relation.ReflTransGen project.Asks other owner →
    project.Composes owner other

/-- Files do not compose from each other in cycles. -/
def FilesAcyclic : Prop :=
  ∀ path, ¬ Relation.TransGen project.ComposesFrom path path

def NeverCyclic : Prop :=
  ∀ failure, project.run.outcome = .error (.failed failure) →
    failure.cause.kind ≠ .cyclicComposition

variable {project}

/-- A name asks for a class of its own file that it composes, or for a name of a file that it
composes from. -/
theorem Asks.sameFile_or_composesFrom (nothing : project.ImportsNothing)
    {owner other : Path × String} (asks : project.Asks owner other) :
    (owner.1 = other.1 ∧ project.Composes owner other) ∨
      project.ComposesFrom owner.1 other.1 := by
  rcases asks with composes | ⟨⟨specifier, composes, means⟩, _⟩
  · rcases composes with ⟨composition, member, reference, referred, isTarget⟩
    cases source : reference.source with
    | sameFile =>
      have known : project.target? owner.1 reference = some (owner.1, reference.name) := by
        simp [target?, source, ModuleState.importOf?, imports_declared nothing]
      rw [known] at isTarget
      cases isTarget
      exact .inl ⟨rfl, composition, member, reference, referred, known⟩
    | passThrough =>
      rw [target?_passThrough source] at isTarget
      cases isTarget
    | file specifier =>
      refine .inr ⟨owner.2, specifier, ⟨composition, member, reference, referred, source⟩, ?_⟩
      simp only [target?, source, imported?] at isTarget
      cases means : project.workspace.resolver.resolve project.workspace.files specifier
          owner.1 with
      | error reason =>
        rw [means] at isTarget
        cases isTarget
      | ok path =>
        rw [means] at isTarget
        cases isTarget
        rfl
  · exact .inr ⟨owner.2, specifier, composes, means⟩

theorem cyclesCompose_of_filesAcyclic (nothing : project.ImportsNothing)
    (acyclic : project.FilesAcyclic) : project.CyclesCompose := by
  have files : ∀ first last : Path × String, Relation.ReflTransGen project.Asks first last →
      Relation.ReflTransGen project.ComposesFrom first.1 last.1 := by
    intro first last path
    induction path with
    | refl => exact .refl
    | tail _ asks earlier =>
      rcases asks.sameFile_or_composesFrom nothing with ⟨same, _⟩ | step
      · exact same ▸ earlier
      · exact earlier.tail step
  intro owner other asks returns
  rcases asks.sameFile_or_composesFrom nothing with ⟨_, composes⟩ | step
  · exact composes
  · exact absurd (Relation.TransGen.head' step (files _ _ returns)) (acyclic _)

/-- A cycle that is reported is one of names that ask for each other, and of compositions if names
that ask for each other in a cycle compose each other. -/
theorem reported_cycles_are_asked_for (nothing : project.ImportsNothing) :
    (∀ failure, project.run.outcome = .error (.failed failure) →
      failure.cause.kind = .cyclicComposition → Reports project.Asks failure ∧
        (project.CyclesCompose → Reports project.Composes failure)) ∧
    ((∀ name, ¬ Relation.TransGen project.Asks name name) → project.NeverCyclic) ∧
    (project.CyclesCompose → (∀ name, ¬ Relation.TransGen project.Composes name name) →
      project.NeverCyclic) ∧
    (project.FilesAcyclic → project.CyclesCompose) := by
  have reports : ∀ failure, project.run.outcome = .error (.failed failure) →
      failure.cause.kind = .cyclicComposition → Reports project.Asks failure :=
    fun failure => reports_of_run nothing
  have composes : project.CyclesCompose → ∀ failure,
      project.run.outcome = .error (.failed failure) →
      failure.cause.kind = .cyclicComposition → Reports project.Composes failure := by
    intro compose failure fails cyclic
    rcases reports failure fails cyclic with ⟨name, chain, cause, closes⟩
    exact ⟨name, chain, cause, closes.mono compose⟩
  refine ⟨?_, ?_, ?_, cyclesCompose_of_filesAcyclic nothing⟩
  · exact fun failure fails cyclic =>
      ⟨reports failure fails cyclic, fun compose => composes compose failure fails cyclic⟩
  · intro acyclic failure fails cyclic
    rcases reports failure fails cyclic with ⟨_, _, _, closes⟩
    exact acyclic _ closes.cycle
  · intro compose acyclic failure fails cyclic
    rcases composes compose failure fails cyclic with ⟨_, _, _, closes⟩
    exact acyclic _ closes.cycle

/-! ## A cycle that is none -/

theorem importsNothing_of_files
    (root : ∀ record ∈ project.records project.root, record.alias? = none)
    (files : ∀ file ∈ project.workspace.files.contents.entries,
      ∀ record ∈ project.records file.1, record.alias? = none) : project.ImportsNothing :=
  forall_of_files (fun _ none => none ▸ nofun) root files

theorem acyclic_of_rank (rank : Path × String → Nat)
    (down : ∀ path, ∀ made ∈ (project.records path).filterMap Record.composition?,
      ∀ reference ∈ made.2.references, ∀ target ∈ project.target? path reference,
        rank target < rank (path, made.1))
    (name : Path × String) : ¬ Relation.TransGen project.Composes name name := by
  have step : ∀ owner other, project.Composes owner other → rank owner > rank other := by
    rintro ⟨path, owner⟩ other ⟨composition, member, reference, referred, isTarget⟩
    rcases ModuleState.mem_compositionsOf_replay.mp member with none | isRecord
    · cases none
    · exact down path (owner, composition) (List.mem_filterMap.mpr ⟨_, isRecord, rfl⟩) reference
        referred other isTarget
  intro cycle
  have descends : Relation.TransGen (· > ·) (rank name) (rank name) := cycle.lift rank step
  rw [Relation.transGen_eq_self] at descends
  exact Nat.lt_irrefl _ descends

/-- Two files that compose from each other, although no class composes itself in the end. -/
def entangled : Project where
  workspace :=
    { options := { Options.standard with namePattern := .template "[name]_[local]" }
      files := .ofList .top
        [("/a.css", ""), ("/b.css", ".y\x7b\x7d.w\x7bcomposes:x from './a.css'\x7d")]
      resolver := .nearest }
  root := .parse "/a.css"
  source := ".x\x7bcomposes:y from './b.css'\x7d"

theorem importsNothing_entangled : entangled.ImportsNothing :=
  importsNothing_of_files (by decide +kernel) (by decide +kernel)

def entanglement : Failure where
  file := .parse "/a.css"
  location := ⟨3, 1, 4⟩
  cause := .cyclicComposition "x" ["/a.css:x", "/b.css:w", "/a.css:x"]

theorem entanglement_reports_asking :
    entangled.ImportsNothing ∧ Reports entangled.Asks entanglement := by
  have fails : entangled.run.outcome = .error (.failed entanglement) := by decide +kernel
  exact ⟨importsNothing_entangled,
    ((reported_cycles_are_asked_for importsNothing_entangled).1 entanglement fails rfl).1⟩

/-- The class `x` composes `y` and is composed by `w`, but it is reported to be on a cycle. -/
theorem entangled_reports_acyclic : entangled.ImportsNothing ∧
    (∀ name, ¬ Relation.TransGen entangled.Composes name name) ∧
    entangled.run.outcome = .error (.failed entanglement) ∧
    ¬ Reports entangled.Composes entanglement := by
  have acyclic : ∀ name, ¬ Relation.TransGen entangled.Composes name name := by
    refine acyclic_of_rank
      (fun target => if target.2 = "w" then 2 else if target.2 = "x" then 1 else 0)
      (forall_of_files (fun _ none => none ▸ nofun) ?_ ?_)
    · decide +kernel
    · decide +kernel
  refine ⟨importsNothing_entangled, acyclic, by decide +kernel, ?_⟩
  rintro ⟨_, _, _, closes⟩
  exact acyclic _ closes.cycle

end Project

end ScopedStyles
