import ScopedStyles.Proofs.Graph.Likeness

/-!
Requests that may nest deeper. A compilation that does not run out of depth comes to the same when
its requests may nest deeper, since a lack of depth is never recovered from. So from some depth on,
the depth does not matter.
-/

namespace ScopedStyles.Compilation

open Compiling

variable (workspace : Workspace)

theorem keeps_deeper : (Likeness.equality (· = .exhausted)).Keeps workspace workspace :=
  Likeness.keeps_equality rfl rfl rfl fun _ _ _ => Likeness.equality_refl _ _

/-- Requests come to the same when they may nest deeper, unless the depth runs out. -/
theorem follow_deeper {depth deeper : Nat} (le : depth ≤ deeper) :
    (Compilation.calls workspace depth).Follow (Likeness.equality (· = .exhausted)) workspace
      (Compilation.calls workspace deeper) := by
  induction depth generalizing deeper with
  | zero => exact ⟨fun _ _ _ _ => .excused rfl, fun _ _ _ => .excused rfl⟩
  | succ depth induction =>
    cases deeper with
    | zero => exact absurd le (Nat.not_succ_le_zero depth)
    | succ deeper =>
      have follow := induction (Nat.le_of_succ_le_succ le)
      exact {
        load := follows_load (keeps_deeper workspace) follow
        resolveOwner := Resolution.follows_resolveOwner (keeps_deeper workspace) follow }

/-- A text is compiled to the same when requests may nest deeper, unless the depth runs out. -/
theorem outcome_compile_deeper {depth deeper : Nat} (le : depth ≤ deeper) {path : Path}
    {source : String} {graph : Graph}
    (ends : (outcome (compile workspace (Resolution.resolve (Compilation.calls workspace depth))
      path source) graph).1 ≠ .error .exhausted) :
    outcome (compile workspace (Resolution.resolve (Compilation.calls workspace deeper)) path
        source) graph =
      outcome (compile workspace (Resolution.resolve (Compilation.calls workspace depth)) path
        source) graph := by
  have keeps := keeps_deeper workspace
  have follow := follow_deeper workspace le
  have follows : (Likeness.equality (· = .exhausted)).Follows Eq graph graph
      (compile workspace (Resolution.resolve (Compilation.calls workspace depth)) path source)
      (compile workspace (Resolution.resolve (Compilation.calls workspace deeper)) path source) :=
    follows_compile keeps (keeps.files.start rfl path) trivial fun _ _ alike =>
      Resolution.follows_resolve keeps follow alike (.file path)
  obtain ⟨halt, halts, rfl⟩ | same := Likeness.outcome_of_equality follows
  · exact absurd halts ends
  · exact same

end ScopedStyles.Compilation
