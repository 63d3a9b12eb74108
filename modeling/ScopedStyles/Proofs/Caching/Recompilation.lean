import ScopedStyles.Proofs.Graph.Loading

/-!
The naive recursion. A request reads the file that its specifier means and compiles it from its
text, in a graph of its own: nothing is shared between requests, whatever has been compiled before.
There is no bound on how deep requests nest; what the recursion comes to is what it comes to from
some depth on.
-/

namespace ScopedStyles

open Compiling

/-! ## Actions at all depths -/

/-- From some depth on, the value is always the same. -/
def Stabilizes (values : Nat → β) (value : β) : Prop :=
  ∃ bound, ∀ depth, bound ≤ depth → values depth = value

namespace Stabilizes

variable {values : Nat → β} {value other : β}

theorem of_forall (equal : ∀ depth, values depth = value) : Stabilizes values value :=
  ⟨0, fun depth _ => equal depth⟩

theorem unique (left : Stabilizes values value) (right : Stabilizes values other) :
    value = other := by
  rcases left with ⟨bound, equal⟩
  rcases right with ⟨bound', equal'⟩
  rw [← equal _ (Nat.le_max_left bound bound'), ← equal' _ (Nat.le_max_right bound bound')]

theorem deeper (stabilizes : Stabilizes (fun depth => values (depth + 1)) value) :
    Stabilizes values value := by
  rcases stabilizes with ⟨bound, equal⟩
  refine ⟨bound + 1, fun depth deep => ?_⟩
  cases depth with
  | zero => omega
  | succ depth =>
    apply equal
    omega

theorem map {results : Nat → γ} {result : γ} (stabilizes : Stabilizes values value)
    (computes : ∀ depth, values depth = value → results depth = result) :
    Stabilizes results result := by
  rcases stabilizes with ⟨bound, equal⟩
  exact ⟨bound, fun depth deep => computes depth (equal depth deep)⟩

end Stabilizes

/-- In the end, an action ends in this way. -/
def Compiling.Settles (action : Nat → Compiling α) (graph : Graph)
    (ending : Except Halt α × Graph) : Prop :=
  Stabilizes (fun depth => outcome (action depth) graph) ending

namespace Compiling.Settles

variable {graph : Graph}

theorem bind {action : Nat → Compiling α} {next : Nat → α → Compiling β} {value : α}
    {middle : Graph} {ending : Except Halt β × Graph}
    (first : Settles action graph (.ok value, middle))
    (rest : Settles (next · value) middle ending) :
    Settles (fun depth => action depth >>= next depth) graph ending := by
  rcases first with ⟨bound, ends⟩
  rcases rest with ⟨bound', ends'⟩
  refine ⟨max bound bound', fun depth deep => ?_⟩
  have firstEnds : outcome (action depth) graph = (.ok value, middle) := ends depth (by omega)
  have restEnds : outcome (next depth value) middle = ending := ends' depth (by omega)
  dsimp only
  rw [outcome_bind, firstEnds]
  exact restEnds

theorem bind_error {action : Nat → Compiling α} {next : Nat → α → Compiling β} {halt : Halt}
    {after : Graph} (first : Settles action graph (.error halt, after)) :
    Settles (fun depth => action depth >>= next depth) graph (.error halt, after) := by
  apply first.map
  intro depth ends
  rw [outcome_bind, ends]

theorem whileResolving {path : Path} {name : String} {cyclic : List (Path × String) → Halt}
    {action : Nat → Compiling α} {entered after : Graph} {result : Except Halt α}
    (enters : graph.enter path name = .ok entered)
    (inside : Settles action entered (result, after)) :
    Settles (fun depth => Compiling.whileResolving path name cyclic (action depth)) graph
      (result, after.leave) := by
  apply inside.map
  intro depth ends
  rw [outcome_whileResolving, enters]
  dsimp only
  rw [ends]

end Compiling.Settles

/-! ## The recursion -/

namespace Recompilation

/-- Compile a text as the content of a file, in a graph of its own. -/
def compile (workspace : Workspace) (calls : Calls) (path : Path) (source : String) :
    Except Halt CompiledModule :=
  (outcome (Compilation.compile workspace (Resolution.resolve calls) path source) .empty).1

/-- The file that a specifier means, compiled from its text. -/
def load (workspace : Workspace) (calls : Calls) (specifier : String) (importer : Path)
    (location : Location) : Compiling Handle :=
  let unresolved (reason : String) : Compiling Handle :=
    fail (.file importer) location (.unresolved specifier reason)
  match workspace.resolver.resolve workspace.files specifier importer with
  | .error reason => unresolved reason
  | .ok path =>
    match workspace.files.read path with
    | .error reason => unresolved reason
    | .ok source =>
      match compile workspace calls path source with
      | .ok compiled => return .ready compiled
      | .error halt => throw halt

def calls (workspace : Workspace) : (depth : Nat) → Calls
  | 0 => Compilation.exhausted
  | depth + 1 =>
    let deeper := calls workspace depth
    { load := load workspace deeper
      resolveOwner := Resolution.resolveOwner deeper }

end Recompilation

/-- What the naive recursion makes of a text, in the end. -/
def Workspace.Recompiles (workspace : Workspace) (path : Path) (source : String)
    (result : Except Halt CompiledModule) : Prop :=
  Stabilizes (fun depth =>
    Recompilation.compile workspace (Recompilation.calls workspace depth) path source) result

namespace Recompilation

variable {workspace : Workspace} {path : Path} {source : String}

theorem recompiles_of_malformed {failure : Failure}
    (malformed : (workspace.collection path source).1 = .error failure) :
    workspace.Recompiles path source (.error (.failed failure)) := by
  apply Stabilizes.of_forall
  intro depth
  rw [compile, Compilation.outcome_compile, malformed]

theorem recompiles_of_settles {sheet : Stylesheet}
    (collects : (workspace.collection path source).1 = .ok sheet) {after : Graph}
    (settles : Settles (fun depth => Resolution.resolve (calls workspace depth) (.file path))
      (Graph.empty.opening workspace path source) (.ok (), after)) :
    workspace.Recompiles path source
      (.ok (workspace.closed path (after.stateAt (.file path)) sheet)) := by
  apply settles.map
  intro depth ends
  rw [compile, Compilation.outcome_compile, collects]
  dsimp only
  rw [ends]

theorem recompiles_of_settles_error {sheet : Stylesheet} {halt : Halt}
    (collects : (workspace.collection path source).1 = .ok sheet) {after : Graph}
    (settles : Settles (fun depth => Resolution.resolve (calls workspace depth) (.file path))
      (Graph.empty.opening workspace path source) (.error halt, after)) :
    workspace.Recompiles path source (.error halt) := by
  apply settles.map
  intro depth ends
  rw [compile, Compilation.outcome_compile, collects]
  dsimp only
  rw [ends]

/-! ## Requests -/

/-- What the naive recursion answers to a request, in the end, on every graph. -/
def Answers (workspace : Workspace) (specifier : String) (importer : Path) (location : Location)
    (result : Except Halt Handle) : Prop :=
  ∀ graph, Settles (fun depth => (calls workspace depth).load specifier importer location) graph
    (result, graph)

variable {specifier : String} {importer : Path} {location : Location}

theorem Answers.unique {result other : Except Halt Handle}
    (left : Answers workspace specifier importer location result)
    (right : Answers workspace specifier importer location other) : result = other :=
  congrArg Prod.fst ((left .empty).unique (right .empty))

theorem answers_of_unresolved {reason : String}
    (unresolved : workspace.resolver.resolve workspace.files specifier importer = .error reason) :
    Answers workspace specifier importer location
      (.error (.failed ⟨importer, location, .unresolved specifier reason⟩)) := by
  intro graph
  apply Stabilizes.deeper
  apply Stabilizes.of_forall
  intro depth
  simp only [calls, load, unresolved]
  rfl

theorem answers_of_unreadable {reason : String}
    (means : workspace.resolver.resolve workspace.files specifier importer = .ok path)
    (unreadable : workspace.files.read path = .error reason) :
    Answers workspace specifier importer location
      (.error (.failed ⟨importer, location, .unresolved specifier reason⟩)) := by
  intro graph
  apply Stabilizes.deeper
  apply Stabilizes.of_forall
  intro depth
  simp only [calls, load, means, unreadable]
  rfl

theorem answers_of_recompiles {result : Except Halt CompiledModule}
    (means : workspace.resolver.resolve workspace.files specifier importer = .ok path)
    (readable : workspace.files.read path = .ok source)
    (recompiles : workspace.Recompiles path source result) :
    Answers workspace specifier importer location (result.map .ready) := by
  intro graph
  apply Stabilizes.deeper
  apply recompiles.map
  intro depth ends
  simp only [calls, load, means, readable, ends]
  cases result with
  | ok compiled => rfl
  | error halt => rfl

end Recompilation

end ScopedStyles
