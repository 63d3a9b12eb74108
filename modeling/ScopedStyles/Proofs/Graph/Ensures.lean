import ScopedStyles.Graph.Compilation

/-!
What an action ensures on a graph. An action ends well with a value, or early with a reason; both
leave a graph. The rules below take an action apart, one construct of the language at a time.
-/

namespace ScopedStyles.Compiling

/-! ## Outcomes -/

/-- What an action comes to on a graph, and the graph that it leaves. -/
def outcome (action : Compiling α) (graph : Graph) : Except Halt α × Graph :=
  (action.run.run graph).run

theorem outcome_bind (action : Compiling α) (next : α → Compiling β) (graph : Graph) :
    outcome (action >>= next) graph =
      match outcome action graph with
      | (.ok value, after) => outcome (next value) after
      | (.error halt, after) => (Except.error halt, after) := by
  change (StateT.bind action.run (ExceptT.bindCont next) graph : Id _).run = _
  change ((ExceptT.bindCont next (outcome action graph).1).run (outcome action graph).2).run = _
  generalize outcome action graph = ending
  rcases ending with ⟨result, after⟩
  cases result <;> rfl

theorem outcome_get (graph : Graph) : outcome get graph = (.ok graph, graph) := rfl

theorem outcome_stateAt (site : Site) (graph : Graph) :
    outcome (stateAt site) graph = (.ok (graph.stateAt site), graph) := rfl

theorem outcome_update (site : Site) (change : ModuleState → ModuleState) (graph : Graph) :
    outcome (update site change) graph =
      (.ok (), graph.setState site (change (graph.stateAt site))) := rfl

theorem outcome_whileResolving (path : Path) (name : String)
    (cyclic : List (Path × String) → Halt) (action : Compiling α) (graph : Graph) :
    outcome (whileResolving path name cyclic action) graph =
      match graph.enter path name with
      | .error chain => (.error (cyclic chain), graph)
      | .ok entered => ((outcome action entered).1, (outcome action entered).2.leave) := by
  change (match graph.enter path name with
    | .error chain => (Except.error (cyclic chain), graph)
    | .ok entered => ((outcome action entered).1, (outcome action entered).2.leave)) = _
  rfl

/-! ## What an action ensures -/

/-- On a graph, an action ends well in `good` or early in `bad`. -/
def Ensures (graph : Graph) (action : Compiling α) (good : α → Graph → Prop)
    (bad : Halt → Graph → Prop) : Prop :=
  match outcome action graph with
  | (.ok value, after) => good value after
  | (.error halt, after) => bad halt after

namespace Ensures

variable {graph : Graph} {good : α → Graph → Prop} {bad : Halt → Graph → Prop}

theorem of_error {action : Compiling α} (ensures : Ensures graph action good bad) {halt : Halt}
    {after : Graph} (ends : outcome action graph = (.error halt, after)) : bad halt after := by
  rw [Ensures, ends] at ensures
  exact ensures

theorem result {action : Compiling α} {holds : Except Halt α → Prop}
    (ensures : Ensures graph action (fun value _ => holds (.ok value))
      fun halt _ => holds (.error halt)) : holds (outcome action graph).1 := by
  unfold Ensures at ensures
  generalize outcome action graph = ending at *
  rcases ending with ⟨result, after⟩
  cases result with
  | ok value => exact ensures
  | error halt => exact ensures

theorem mono {action : Compiling α} {better : α → Graph → Prop} {worse : Halt → Graph → Prop}
    (ensures : Ensures graph action better worse)
    (weaken : ∀ value after, better value after → good value after)
    (weakenHalt : ∀ halt after, worse halt after → bad halt after) :
    Ensures graph action good bad := by
  unfold Ensures at *
  generalize outcome action graph = ending at *
  rcases ending with ⟨result, after⟩
  cases result with
  | ok value => exact weaken value after ensures
  | error halt => exact weakenHalt halt after ensures

theorem and {action : Compiling α} {good' : α → Graph → Prop} {bad' : Halt → Graph → Prop}
    (left : Ensures graph action good bad) (right : Ensures graph action good' bad') :
    Ensures graph action (fun value after => good value after ∧ good' value after)
      (fun halt after => bad halt after ∧ bad' halt after) := by
  unfold Ensures at *
  generalize outcome action graph = ending at *
  rcases ending with ⟨result, after⟩
  cases result with
  | ok value => exact ⟨left, right⟩
  | error halt => exact ⟨left, right⟩

theorem pure {value : α} (holds : good value graph) :
    Ensures graph (Pure.pure value) good bad := holds

theorem fail {site : Site} {location : Location} {cause : Cause}
    (holds : bad (.failed ⟨site.path, location, cause⟩) graph) :
    Ensures graph (Compiling.fail site location cause) good bad := holds

theorem bind {action : Compiling α} {next : α → Compiling β} {good : β → Graph → Prop}
    (first : Ensures graph action (fun value after => Ensures after (next value) good bad) bad) :
    Ensures graph (action >>= next) good bad := by
  unfold Ensures at *
  rw [outcome_bind]
  generalize outcome action graph = ending at *
  rcases ending with ⟨result, after⟩
  cases result with
  | ok value => exact first
  | error halt => exact first

theorem get {next : Graph → Compiling β} {good : β → Graph → Prop}
    (rest : Ensures graph (next graph) good bad) :
    Ensures graph (MonadState.get >>= next) good bad :=
  bind rest

theorem stateAt {site : Site} {next : ModuleState → Compiling β} {good : β → Graph → Prop}
    (rest : Ensures graph (next (graph.stateAt site)) good bad) :
    Ensures graph (Compiling.stateAt site >>= next) good bad :=
  bind rest

theorem note {event : GraphEvent} {good : Unit → Graph → Prop}
    (holds : good () (graph.record event)) : Ensures graph (Compiling.note event) good bad := holds

theorem update {site : Site} {change : ModuleState → ModuleState} {good : Unit → Graph → Prop}
    (holds : good () (graph.setState site (change (graph.stateAt site)))) :
    Ensures graph (Compiling.update site change) good bad := holds

theorem whileResolving {path : Path} {name : String} {cyclic : List (Path × String) → Halt}
    {action : Compiling α}
    (blocked : ∀ chain, graph.enter path name = .error chain → bad (cyclic chain) graph)
    (inside : ∀ entered, graph.enter path name = .ok entered →
      Ensures entered action (fun value after => good value after.leave)
        (fun halt after => bad halt after.leave)) :
    Ensures graph (Compiling.whileResolving path name cyclic action) good bad := by
  unfold Ensures
  rw [outcome_whileResolving]
  cases enters : graph.enter path name with
  | error chain => exact blocked chain enters
  | ok entered =>
    have ensured := inside entered enters
    unfold Ensures at ensured
    revert ensured
    dsimp only
    generalize outcome action entered = ending
    rcases ending with ⟨result, after⟩
    cases result with
    | ok value => exact id
    | error halt => exact id

theorem forM {items : List ι} {action : ι → Compiling Unit} (invariant : List ι → Graph → Prop)
    (start : invariant [] graph)
    (step : ∀ done item rest, items = done ++ item :: rest → ∀ current, invariant done current →
      Ensures current (action item) (fun _ after => invariant (done ++ [item]) after) bad) :
    Ensures graph (items.forM action) (fun _ after => invariant items after) bad := by
  suffices general : ∀ done rest current, items = done ++ rest → invariant done current →
      Ensures current (rest.forM action) (fun _ after => invariant items after) bad from
    general [] items graph rfl start
  intro done rest
  induction rest generalizing done with
  | nil =>
    intro current equal holds
    rw [List.append_nil] at equal
    exact equal ▸ holds
  | cons item rest induction =>
    intro current equal holds
    change Ensures current (action item >>= fun _ => rest.forM action) _ _
    refine bind ((step done item rest equal current holds).mono ?_ fun _ _ => id)
    intro _ after held
    exact induction (done ++ [item]) after (by rw [equal, List.append_assoc]; rfl) held

/-- A loop that collects values, by an invariant that knows what has been done and collected. -/
theorem mapM {items : List ι} {action : ι → Compiling α}
    (invariant : List ι → List α → Graph → Prop)
    (start : invariant [] [] graph)
    (step : ∀ done item rest values, items = done ++ item :: rest → ∀ current,
      invariant done values current →
      Ensures current (action item)
        (fun value after => invariant (done ++ [item]) (values ++ [value]) after) bad) :
    Ensures graph (items.mapM action) (fun values after => invariant items values after) bad := by
  suffices general : ∀ rest done values current, items = done ++ rest →
      invariant done values current →
      Ensures current (rest.mapM action)
        (fun others after => invariant items (values ++ others) after) bad from
    general items [] [] graph rfl start
  intro rest
  induction rest with
  | nil =>
    intro done values current equal holds
    rw [List.append_nil] at equal
    rw [List.mapM_nil]
    apply pure
    rw [List.append_nil]
    exact equal ▸ holds
  | cons item rest induction =>
    intro done values current equal holds
    rw [List.mapM_cons]
    refine bind ((step done item rest values equal current holds).mono ?_ fun _ _ => id)
    intro value after held
    refine bind ((induction (done ++ [item]) (values ++ [value]) after
      (by rw [equal, List.append_assoc]; rfl) held).mono ?_ fun _ _ => id)
    intro others last collected
    apply pure
    rwa [List.append_assoc] at collected

end Ensures

end ScopedStyles.Compiling
