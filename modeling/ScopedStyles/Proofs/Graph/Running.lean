import ScopedStyles.Processing
import ScopedStyles.Proofs.Graph.Loading

/-!
Processing a file under a contract. A run that succeeds has opened the root in an empty graph,
resolved it, and closed it; it leaves nothing but finished files.
-/

namespace ScopedStyles.Processing

open Compiling

variable {workspace : Workspace} {path : Path} {source : String}

theorem run_eq (workspace : Workspace) (path : Path) (source : String) :
    run workspace path source =
      ⟨(outcome (Graph.compile workspace path source) .empty).1.map
          (summarize workspace.options (outcome (Graph.compile workspace path source) .empty).2),
        (outcome (Graph.compile workspace path source) .empty).2⟩ := rfl

/-- How a run ends that succeeds: the graph when the root has been resolved, and its sheet. -/
structure Ends (workspace : Workspace) (path : Path) (source : String) (resolved : Graph)
    (sheet : Stylesheet) : Prop where
  completes : (Graph.empty.opening workspace path source).Completes workspace [] resolved
  released : ∀ owner, (resolved.stateAt (.file path)).compositions.contains owner →
    owner ∉ (resolved.stateAt (.file path)).pending
  collects : (workspace.collection path source).1 = .ok sheet
  graph : (run workspace path source).graph = resolved.closing workspace path sheet
  outcome : (run workspace path source).outcome =
    .ok (summarize workspace.options (run workspace path source).graph
      (workspace.closed path (resolved.stateAt (.file path)) sheet))

/-- A run succeeds under a contract, or fails for a reason that the contract admits. -/
theorem ends_or_blames {contract : Contract workspace}
    (meets : ∀ depth, (Compilation.calls workspace depth).Meet contract)
    (starts : ∀ sheet, (workspace.collection path source).1 = .ok sheet →
      contract.MayStart (Graph.empty.opening workspace path source) path source) :
    (∃ resolved sheet, Ends workspace path source resolved sheet ∧ contract.keeps resolved) ∨
      ∃ halt, (run workspace path source).outcome = .error halt ∧ contract.blames halt := by
  have ensured := Compilation.ensures_compile (meets _) starts
  unfold Compilation.Compiles Ensures at ensured
  have run := run_eq workspace path source
  generalize outcome (Graph.compile workspace path source) .empty = ending at ensured run
  rcases ending with ⟨result, after⟩
  cases result with
  | error halt => exact .inr ⟨halt, by rw [run]; rfl, ensured⟩
  | ok compiled =>
    rcases ensured with ⟨resolved, sheet, completes, keeps, complete, collects, rfl, rfl⟩
    refine .inl ⟨resolved, sheet, ⟨completes, complete.released, collects, ?_, ?_⟩, keeps⟩
    · rw [run]
    · rw [run]
      rfl

theorem Ends.finished {resolved : Graph} {sheet : Stylesheet}
    (ends : Ends workspace path source resolved sheet) {site : Site} {slot : Slot}
    (found : (run workspace path source).graph.slots.get? site = some slot) :
    ∃ compiled, site = .file compiled.path ∧ slot = .finished compiled := by
  rw [ends.graph, Graph.get?_closing] at found
  split at found
  · rename_i equal
    cases found
    exact ⟨_, equal, rfl⟩
  · rename_i different
    have absent : (Graph.empty.opening workspace path source).slots.get? site = none := by
      rw [Graph.get?_opening, if_neg different]
      rfl
    rcases ends.completes.added site slot absent found with ⟨compiled, _, isFile, isFinished, _⟩
    exact ⟨compiled, isFile, isFinished⟩

end ScopedStyles.Processing
