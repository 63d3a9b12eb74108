import Mathlib.Data.List.Nodup
import ScopedStyles.Proofs.Graph.Ensures
import ScopedStyles.Proofs.Module.Symbols

/-!
How a graph evolves while files are compiled in it. A request leaves the names that are being
resolved as they are, changes open files in the ways of the second pass only, touches no finished
file, and, when it ends well, has finished every file that it opened. This holds of every nested
request, so it holds of every run.
-/

namespace ScopedStyles

namespace Graph

def IsOpen (graph : Graph) (site : Site) : Prop :=
  ∃ state, graph.slots.get? site = some (.inFlight state)

/-- What a request can do to a graph. Names that are `held` are left alone in open files. -/
structure Evolves (held : List (Path × String)) (before after : Graph) : Prop where
  resolving : after.resolving = before.resolving
  opened : ∀ site state, before.slots.get? site = some (.inFlight state) →
    ∃ later, after.slots.get? site = some (.inFlight later) ∧
      state.Develops (fun name => (site.path, name) ∈ held) later
  finished : ∀ site compiled, before.slots.get? site = some (.finished compiled) →
    after.slots.get? site = some (.finished compiled)

end Graph

/-- What is collected from the text of a file. -/
def Workspace.collection (workspace : Workspace) (path : Path) (source : String) :
    Except Failure Stylesheet × Collection :=
  Collect.run (workspace.context path source) (parse source)

/-- The module that a file becomes, from its state and its sheet at the end. -/
def Workspace.closed (workspace : Workspace) (path : Path) (state : ModuleState)
    (sheet : Stylesheet) : CompiledModule :=
  ⟨path, state,
    if workspace.options.removeEmptyRules then Node.pruneAll (Substitution.nodes state sheet)
    else Substitution.nodes state sheet⟩

/-- The text of a file was compiled to this module. -/
structure CompiledModule.ResultOf (workspace : Workspace) (path : Path) (source : String)
    (compiled : CompiledModule) : Prop where
  develops : (workspace.collection path source).2.state.Develops (fun _ => False) compiled.state
  complete : compiled.state.Complete
  closed : ∃ sheet, (workspace.collection path source).1 = .ok sheet ∧
    compiled = workspace.closed path compiled.state sheet

namespace Graph

/-- What a request that ends well does to a graph. -/
structure Completes (workspace : Workspace) (held : List (Path × String)) (before after : Graph) :
    Prop extends Evolves held before after where
  added : ∀ site slot, before.slots.get? site = none → after.slots.get? site = some slot →
    ∃ compiled source, site = .file compiled.path ∧ slot = .finished compiled ∧
      workspace.files.read compiled.path = .ok source ∧
      compiled.ResultOf workspace compiled.path source

def Offers (graph : Graph) : Handle → Prop
  | .inFlight path => graph.IsOpen (.file path)
  | .ready compiled => graph.slots.get? (.file compiled.path) = some (.finished compiled)

variable {workspace : Workspace} {held : List (Path × String)} {before middle after : Graph}

theorem Evolves.refl (held : List (Path × String)) (graph : Graph) : Evolves held graph graph where
  resolving := rfl
  opened _ state found := ⟨state, found, .refl⟩
  finished _ _ found := found

theorem Evolves.trans (left : Evolves held before middle) (right : Evolves held middle after) :
    Evolves held before after where
  resolving := right.resolving.trans left.resolving
  opened site state found := by
    rcases left.opened site state found with ⟨later, foundLater, develops⟩
    rcases right.opened site later foundLater with ⟨last, foundLast, develops'⟩
    exact ⟨last, foundLast, develops.trans develops'⟩
  finished site compiled found := right.finished site compiled (left.finished site compiled found)

theorem Evolves.mono {fewer : List (Path × String)} (less : fewer ⊆ held)
    (evolves : Evolves held before after) : Evolves fewer before after where
  resolving := evolves.resolving
  opened site state found := by
    rcases evolves.opened site state found with ⟨later, foundLater, develops⟩
    exact ⟨later, foundLater, develops.mono fun _ member => less member⟩
  finished := evolves.finished

theorem Evolves.isOpen {site : Site} (evolves : Evolves held before after)
    (isOpen : before.IsOpen site) : after.IsOpen site := by
  rcases isOpen with ⟨state, found⟩
  rcases evolves.opened site state found with ⟨later, foundLater, _⟩
  exact ⟨later, foundLater⟩

theorem stateAt_of_get? {graph : Graph} {site : Site} {slot : Slot}
    (found : graph.slots.get? site = some slot) : graph.stateAt site = slot.state := by
  simp [stateAt, found]

theorem stateAt_congr {graph after : Graph} (slots : after.slots = graph.slots) (site : Site) :
    after.stateAt site = graph.stateAt site := by
  rw [stateAt, slots, stateAt]

theorem Evolves.develops {site : Site} (evolves : Evolves held before after)
    (isOpen : before.IsOpen site) :
    (before.stateAt site).Develops (fun name => (site.path, name) ∈ held) (after.stateAt site) := by
  rcases isOpen with ⟨state, found⟩
  rcases evolves.opened site state found with ⟨later, foundLater, develops⟩
  rw [stateAt_of_get? found, stateAt_of_get? foundLater]
  exact develops

theorem Completes.refl (workspace : Workspace) (held : List (Path × String)) (graph : Graph) :
    Completes workspace held graph graph where
  toEvolves := .refl held graph
  added _ _ absent found := by
    rw [absent] at found
    cases found

theorem Completes.trans (left : Completes workspace held before middle)
    (right : Completes workspace held middle after) : Completes workspace held before after where
  toEvolves := left.toEvolves.trans right.toEvolves
  added site slot absent found := by
    cases between : middle.slots.get? site with
    | none => exact right.added site slot between found
    | some earlier =>
      rcases left.added site earlier absent between with
        ⟨compiled, source, isFile, isFinished, rest⟩
      subst isFinished
      have same := right.finished site compiled between
      rw [found] at same
      cases same
      exact ⟨compiled, source, isFile, rfl, rest⟩

theorem Completes.mono {fewer : List (Path × String)} (less : fewer ⊆ held)
    (completes : Completes workspace held before after) :
    Completes workspace fewer before after where
  toEvolves := completes.toEvolves.mono less
  added := completes.added

/-! ## Single changes of a graph -/

theorem enter_eq_ok {graph entered : Graph} {path : Path} {name : String}
    (enters : graph.enter path name = .ok entered) :
    (path, name) ∉ graph.resolving ∧ entered.resolving = graph.resolving ++ [(path, name)] ∧
      entered.slots = graph.slots := by
  unfold enter at enters
  split at enters
  · cases enters
  · rename_i absent
    cases enters
    exact ⟨absent, rfl, rfl⟩

theorem nodup_resolving_enter {graph entered : Graph} {path : Path} {name : String}
    (enters : graph.enter path name = .ok entered) (nodup : graph.resolving.Nodup) :
    entered.resolving.Nodup := by
  obtain ⟨free, resolving, _⟩ := enter_eq_ok enters
  rw [resolving, ← List.concat_eq_append]
  exact nodup.concat free

/-- Leaving undoes entering, if the same names are being resolved in between. -/
theorem resolving_leave {graph entered : Graph} {path : Path} {name : String}
    (enters : graph.enter path name = .ok entered) (same : after.resolving = entered.resolving) :
    after.leave.resolving = graph.resolving := by
  obtain ⟨_, resolving, _⟩ := enter_eq_ok enters
  rw [leave, same, resolving, List.dropLast_concat]

theorem enter_eq_error {graph : Graph} {path : Path} {name : String}
    {chain : List (Path × String)} (blocked : graph.enter path name = .error chain) :
    (path, name) ∈ graph.resolving ∧
      chain = graph.resolving.dropWhile (· ≠ (path, name)) ++ [(path, name)] := by
  unfold enter at blocked
  split at blocked
  · rename_i present
    cases blocked
    exact ⟨present, rfl⟩
  · cases blocked

theorem Completes.record (workspace : Workspace) (held : List (Path × String)) (graph : Graph)
    (event : GraphEvent) : Completes workspace held graph (graph.record event) where
  resolving := rfl
  opened _ state found := ⟨state, found, .refl⟩
  finished _ _ found := found
  added _ _ absent found := by
    change graph.slots.get? _ = _ at found
    rw [absent] at found
    cases found

theorem get?_setState (graph : Graph) (site other : Site) (state : ModuleState) :
    (graph.setState site state).slots.get? other =
      if other = site then some (.inFlight state) else graph.slots.get? other :=
  OrderedMap.get?_insert graph.slots site other _

theorem stateAt_setState (graph : Graph) (site : Site) (state : ModuleState) :
    (graph.setState site state).stateAt site = state :=
  stateAt_of_get? ((get?_setState graph site site state).trans (if_pos rfl))

theorem has_setState (graph : Graph) {site : Site} {state : ModuleState} {path : Path}
    (known : graph.has path) : (graph.setState site state).has path := by
  apply (OrderedMap.contains_insert graph.slots site (.file path) _).trans
  have known : graph.slots.contains (.file path) = true := known
  simp [known]

theorem Completes.setState (workspace : Workspace) (held : List (Path × String)) {graph : Graph}
    {site : Site} {later : ModuleState} (isOpen : graph.IsOpen site)
    (change : (graph.stateAt site).Change (fun name => (site.path, name) ∈ held) later) :
    Completes workspace held graph (graph.setState site later) where
  resolving := rfl
  opened other state found := by
    rw [get?_setState]
    split
    · rename_i equal
      subst equal
      rw [stateAt_of_get? found] at change
      exact ⟨later, rfl, .single change⟩
    · exact ⟨state, found, .refl⟩
  finished other compiled found := by
    rw [get?_setState, if_neg]
    · exact found
    · rintro rfl
      rcases isOpen with ⟨state, foundOpen⟩
      rw [found] at foundOpen
      cases foundOpen
  added other slot absent found := by
    rw [get?_setState, if_neg] at found
    · rw [absent] at found
      cases found
    · rintro rfl
      rcases isOpen with ⟨state, foundOpen⟩
      rw [absent] at foundOpen
      cases foundOpen

/-- What happens while a name is resolved leaves the names resolved before as they are. -/
theorem Evolves.leave {graph entered : Graph} {path : Path} {name : String}
    (enters : graph.enter path name = .ok entered) (inside : Evolves held entered after) :
    Evolves held graph after.leave := by
  obtain ⟨_, _, slots⟩ := enter_eq_ok enters
  refine ⟨resolving_leave enters inside.resolving, ?_, ?_⟩
  · rw [← slots]
    exact inside.opened
  · rw [← slots]
    exact inside.finished

theorem Completes.leave {graph entered : Graph} {path : Path} {name : String}
    (enters : graph.enter path name = .ok entered)
    (inside : Completes workspace held entered after) :
    Completes workspace held graph after.leave := by
  refine ⟨inside.toEvolves.leave enters, ?_⟩
  rw [← (enter_eq_ok enters).2.2]
  exact inside.added

end Graph

end ScopedStyles
