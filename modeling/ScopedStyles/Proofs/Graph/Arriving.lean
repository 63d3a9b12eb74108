import ScopedStyles.Proofs.Graph.Running
import ScopedStyles.Proofs.Graph.Walking

/-!
A run is a sequence of steps from the graph in which its root has been opened. Whatever this graph
has and every step keeps holds at the end, whether the run succeeds or fails.
-/

namespace ScopedStyles.Processing

open Compiling ScopedStyles.Graph

variable {workspace : Workspace} {path : Path} {source : String}

theorem works_root (workspace : Workspace) (path : Path) (source : String) :
    (Graph.empty.opening workspace path source).Works workspace path where
  isOpen := isOpen_opening ..
  leads other isOpen := by
    rw [isOpen_opening_iff] at isOpen
    obtain equal | ⟨state, found⟩ := isOpen
    · cases equal
      exact .refl
    · cases found
  filed := by
    have filed := Filed.empty
    exact filed.opening workspace path source

/-- How a run goes that succeeds: the root is opened, resolved and closed. -/
structure Arrives (workspace : Workspace) (path : Path) (source : String) (resolved : Graph)
    (sheet : Stylesheet) : Prop where
  collects : (workspace.collection path source).1 = .ok sheet
  returns : (Graph.empty.opening workspace path source).Returns workspace resolved
  complete : (resolved.stateAt (.file path)).Complete
  graph : (run workspace path source).graph = resolved.closing workspace path sheet
  outcome : (run workspace path source).outcome =
    .ok (summarize workspace.options (run workspace path source).graph
      (workspace.closed path (resolved.stateAt (.file path)) sheet))

theorem arrives_or_breaks (workspace : Workspace) (path : Path) (source : String) :
    (∃ resolved sheet, Arrives workspace path source resolved sheet) ∨
      (∃ halt, (run workspace path source).outcome = .error halt) ∧
        (Graph.empty.opening workspace path source).Breaks workspace
          (run workspace path source).graph := by
  have run := run_eq workspace path source
  rw [Graph.compile, Compilation.outcome_compile, Compilation.outcome_resolve] at run
  cases collects : (workspace.collection path source).1 with
  | error failure =>
    rw [collects] at run
    exact .inr ⟨⟨_, by rw [run]; rfl⟩, by rw [run]; exact .refl workspace _⟩
  | ok sheet =>
    rw [collects] at run
    dsimp only at run
    have resolves := Resolution.walks_resolve (Compilation.calls_walk workspace
      (Compilation.depthLimit workspace (Graph.empty.opening workspace path source)))
      (works_root workspace path source)
    unfold Walks Ensures at resolves
    generalize outcome (Resolution.resolve _ (.file path))
      (Graph.empty.opening workspace path source) = ending at resolves run
    obtain ⟨result, resolved⟩ := ending
    cases result with
    | error halt => exact .inr ⟨⟨halt, by rw [run]; rfl⟩, by rw [run]; exact resolves⟩
    | ok _ =>
      obtain ⟨returns, complete⟩ := resolves
      exact .inl ⟨resolved, sheet, collects, returns, complete, by rw [run], by rw [run]; rfl⟩

theorem arrives_of_succeeds {file : ProcessedFile}
    (succeeds : (run workspace path source).outcome = .ok file) :
    ∃ resolved sheet, Arrives workspace path source resolved sheet := by
  obtain arrives | ⟨⟨halt, fails⟩, _⟩ := arrives_or_breaks workspace path source
  · exact arrives
  · cases succeeds.symm.trans fails

variable {resolved : Graph} {sheet : Stylesheet}

/-- A run that succeeds takes no step that only failing requests take. -/
theorem Arrives.steps (arrives : Arrives workspace path source resolved sheet) :
    (Graph.empty.opening workspace path source).Steps workspace False
      (run workspace path source).graph := by
  have isOpen := (arrives.returns.opened (.file path)).mpr (isOpen_opening ..)
  rw [arrives.graph]
  exact arrives.returns.steps.tail (.closed isOpen arrives.complete sheet)

theorem Arrives.closed (arrives : Arrives workspace path source resolved sheet) (site : Site) :
    ¬ (run workspace path source).graph.IsOpen site := by
  rw [arrives.graph, isOpen_closing_iff, arrives.returns.opened, isOpen_opening_iff]
  rintro ⟨different, equal | ⟨state, found⟩⟩
  · exact different equal
  · cases found

theorem steps_run (workspace : Workspace) (path : Path) (source : String) :
    (Graph.empty.opening workspace path source).Steps workspace True
      (run workspace path source).graph := by
  obtain ⟨resolved, sheet, arrives⟩ | ⟨_, breaks⟩ := arrives_or_breaks workspace path source
  · exact arrives.steps.mono False.elim
  · exact breaks.steps

end ScopedStyles.Processing
