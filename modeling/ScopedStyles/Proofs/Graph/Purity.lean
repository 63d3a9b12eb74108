import ScopedStyles.Processing
import ScopedStyles.Proofs.Graph.Nesting
import ScopedStyles.Proofs.Module.Counterparts

/-!
Files that are pure are local files that pass a check. Whatever is processed as pure comes to what
it comes to as local, unless the check fails.
-/

namespace ScopedStyles

open Compiling

def Workspace.withBehaviour (workspace : Workspace) (behaviour : ScopeBehaviour) : Workspace :=
  { workspace with options := { workspace.options with behaviour } }

@[simp] theorem Workspace.withBehaviour_files (workspace : Workspace)
    (behaviour : ScopeBehaviour) :
    (workspace.withBehaviour behaviour).files = workspace.files := rfl

/-- A failure of the check that selectors contain local names. -/
def Failure.IsImpure (failure : Failure) : Prop :=
  failure.cause.kind = .purity

namespace Collect

/-- Collections that are the same; failures of the check are excused. -/
def purity : Pairing Failure Collection where
  alike := Eq
  ended := Eq
  excused := Failure.IsImpure
  ended_of_alike := id

variable (workspace : Workspace) (path : Path) (source : String)

/-- A file is collected as pure as it is collected as local, but for the check. -/
theorem counterparts_purity :
    ((workspace.withBehaviour .purely).context path source).Counterparts purity
      ((workspace.withBehaviour .locally).context path source) := by
  have modes (behaviour : ScopeBehaviour) :
      ((workspace.withBehaviour behaviour).context path source).mode =
        if workspace.options.globalPaths.any (·.isFoundIn path.text) then .globally
        else behaviour.mode := rfl
  refine ⟨rfl, id, ?_, ?_, fun _ _ _ _ => rfl, fun same => same ▸ rfl, ?_,
    fun off on => absurd (off.symm.trans on) Bool.false_ne_true⟩
  · rw [modes, modes]
    split
    · exact .refl _
    · exact ⟨rfl, rfl⟩
  · rw [modes]
    split
    · exact nofun
    · exact nofun
  · intro collection other same records
    have declares : Record.declare ((workspace.withBehaviour .purely).context path source) =
        Record.declare ((workspace.withBehaviour .locally).context path source) := by
      funext state record
      cases record <;> rfl
    rw [same, Collection.replay, declares]
    rfl

theorem ends_run_purity : purity.Ends Eq ((workspace.withBehaviour .purely).collection path source)
    ((workspace.withBehaviour .locally).collection path source) := by
  have ends := ends_run (counterparts_purity workspace path source) rfl purity
    (fun _ => id) (fun _ _ => id) (parse source) (fun _ _ same _ _ => congrArg _ same)
  unfold Workspace.collection
  generalize run ((workspace.withBehaviour .purely).context path source) (parse source) = ending
    at ends ⊢
  generalize run ((workspace.withBehaviour .locally).context path source) (parse source) =
    otherEnding at ends ⊢
  cases ends with
  | value alike same => exact .value (TextLikeness.renamed_self alike).symm same
  | reason same => exact .reason same
  | excused excuse => exact .excused excuse

end Collect

/-- A computation that ends early because the check fails. -/
def Halt.IsImpure : Halt → Prop
  | .failed failure => failure.IsImpure
  | .exhausted => False

theorem Compilation.keeps_purity (workspace : Workspace) :
    (Likeness.equality Halt.IsImpure).Keeps (workspace.withBehaviour .purely)
      (workspace.withBehaviour .locally) := by
  refine Likeness.keeps_equality rfl rfl rfl fun graph path source => ?_
  let context := (workspace.withBehaviour .purely).context path source
  let other := (workspace.withBehaviour .locally).context path source
  have ends : Collect.purity.Ends Eq (Collect.run context (parse context.source))
      (Collect.run other (parse other.source)) := Collect.ends_run_purity workspace path source
  change (Likeness.equality Halt.IsImpure).Ends Eq (outcome (collect context (.file path)) graph)
    (outcome (collect other (.file path)) graph)
  rw [outcome_collect_at, outcome_collect_at]
  generalize Collect.run context (parse context.source) = ending at ends ⊢
  generalize Collect.run other (parse other.source) = otherEnding at ends ⊢
  cases ends with
  | value same sameCollection => exact .value same (sameCollection ▸ rfl)
  | reason sameCollection => exact .reason (sameCollection ▸ rfl)
  | excused excuse => exact .excused excuse

namespace Processing

theorem run_purity (workspace : Workspace) (path : Path) (source : String) :
    (∃ failure, Failure.IsImpure failure ∧
      (run (workspace.withBehaviour .purely) path source).outcome = .error (.failed failure)) ∨
    run (workspace.withBehaviour .purely) path source =
      run (workspace.withBehaviour .locally) path source := by
  have keeps := Compilation.keeps_purity workspace
  have ends : (Likeness.equality Halt.IsImpure).Ends Eq
      (outcome (Graph.compile (workspace.withBehaviour .purely) path source) .empty)
      (outcome (Graph.compile (workspace.withBehaviour .locally) path source) .empty) :=
    Project.ends_of_keeps keeps (keeps.files.start rfl path) trivial
  rw [run_eq, run_eq]
  generalize outcome (Graph.compile (workspace.withBehaviour .purely) path source) .empty = ending
    at ends ⊢
  generalize outcome (Graph.compile (workspace.withBehaviour .locally) path source) .empty =
    otherEnding at ends ⊢
  cases ends with
  | value same sameGraph => exact .inr (same ▸ sameGraph ▸ rfl)
  | reason sameGraph => exact .inr (sameGraph ▸ rfl)
  | @excused halt graph _ excuse =>
    cases halt with
    | failed failure => exact .inl ⟨failure, excuse, rfl⟩
    | exhausted => exact excuse.elim

/-- Purity is a check and nothing else. A file that is processed as pure comes to exactly what it
comes to as local, with the same graph behind it, or it fails the check. -/
theorem purity_is_a_check (workspace : Workspace) (path : String) :
    (∀ source,
      (∃ failure, failure.IsImpure ∧
        (processSource (workspace.withBehaviour .purely) path source).outcome =
          .error (.failed failure)) ∨
      processSource (workspace.withBehaviour .purely) path source =
        processSource (workspace.withBehaviour .locally) path source) ∧
    ((∃ failure, failure.IsImpure ∧
        (processFile (workspace.withBehaviour .purely) path).outcome = .error (.failed failure)) ∨
      processFile (workspace.withBehaviour .purely) path =
        processFile (workspace.withBehaviour .locally) path) := by
  refine ⟨fun source => run_purity workspace _ source, ?_⟩
  unfold processFile
  simp only [Workspace.withBehaviour_files]
  cases workspace.files.read (workspace.files.directory.resolve path) with
  | error reason => exact .inr rfl
  | ok source =>
    obtain ⟨failure, impure, fails⟩ | same := run_purity workspace _ source
    · exact .inl ⟨failure, impure, fails⟩
    · right
      dsimp only
      rw [same]

end Processing

end ScopedStyles
