import ScopedStyles.Proofs.Caching.Mirroring

/-!
The steps of resolution, taken in a shared graph by requests that share what they compile, and in a
graph of its own by requests that recompile everything. The steps are the same, so both graphs keep
mirroring each other and both come to the same end, given that the requests come to the same.
-/

namespace ScopedStyles

open Compiling ScopedStyles.Graph

/-! ## Actions -/

/-- An action, taken at all depths, fails as well, unless the failure is a lack of depth. What has
been finished on the way is sound. -/
def Fails (workspace : Workspace) (own : Graph) (naive : Nat → Compiling α) (halt : Halt)
    (after : Graph) : Prop :=
  after.Cached workspace ∧
    (halt ≠ .exhausted → ∃ ownAfter, Settles naive own (.error halt, ownAfter))

theorem Fails.map {workspace : Workspace} {own ownLater : Graph} {naive : Nat → Compiling α}
    {further : Nat → Compiling β} {halt : Halt} {after last : Graph}
    (fails : Fails workspace own naive halt after) (slots : last.slots = after.slots)
    (continues : ∀ ownAfter, Settles naive own (.error halt, ownAfter) →
      ∃ ownLast, Settles further ownLater (.error halt, ownLast)) :
    Fails workspace ownLater further halt last := by
  refine ⟨fails.1.congr slots, fun answered => ?_⟩
  rcases fails.2 answered with ⟨ownAfter, settles⟩
  exact continues ownAfter settles

/-- Two actions, one of them at all depths, come to the same end in graphs that mirror each other,
and the graphs still do so when they end well. -/
def Lockstep (workspace : Workspace) (outer : Graph) (path : Path) (inner : List (Path × String))
    (graph own : Graph) (action : Compiling α) (naive : Nat → Compiling α) (good : α → Prop) :
    Prop :=
  Ensures graph action
    (fun value after => good value ∧ ∃ ownAfter, Settles naive own (.ok value, ownAfter) ∧
      Mirrors workspace outer path inner after ownAfter)
    (Fails workspace own naive)

namespace Lockstep

variable {workspace : Workspace} {outer : Graph} {path : Path} {inner : List (Path × String)}
  {graph own : Graph}

theorem deeper {action : Compiling α} {naive : Nat → Compiling α} {good : α → Prop}
    (lockstep : Lockstep workspace outer path inner graph own action
      (fun depth => naive (depth + 1)) good) :
    Lockstep workspace outer path inner graph own action naive good := by
  apply Ensures.mono lockstep
  · rintro value after ⟨holds, ownAfter, settles, mirrors⟩
    exact ⟨holds, ownAfter, Stabilizes.deeper settles, mirrors⟩
  · intro halt after fails
    exact fails.map rfl fun ownAfter settles => ⟨ownAfter, Stabilizes.deeper settles⟩

theorem still {action : Compiling α} {naive : Nat → Compiling α} {good : α → Prop}
    {result : Except Halt α} (mirrors : Mirrors workspace outer path inner graph own)
    (ends : outcome action graph = (result, graph))
    (ownEnds : ∀ depth, outcome (naive depth) own = (result, own))
    (holds : ∀ value, result = .ok value → good value) :
    Lockstep workspace outer path inner graph own action naive good := by
  unfold Lockstep Ensures
  rw [ends]
  cases result with
  | ok value => exact ⟨holds value rfl, own, .of_forall ownEnds, mirrors⟩
  | error halt => exact ⟨mirrors.cached, fun _ => ⟨own, .of_forall ownEnds⟩⟩

theorem pure {value : α} {good : α → Prop}
    (mirrors : Mirrors workspace outer path inner graph own) (holds : good value) :
    Lockstep workspace outer path inner graph own (Pure.pure value) (fun _ => Pure.pure value)
      good :=
  Ensures.pure ⟨holds, own, .of_forall fun _ => rfl, mirrors⟩

theorem fail {site : Site} {location : Location} {cause : Cause} {good : α → Prop}
    (mirrors : Mirrors workspace outer path inner graph own) :
    Lockstep workspace outer path inner graph own (Compiling.fail site location cause)
      (fun _ => Compiling.fail site location cause) good :=
  still mirrors rfl (fun _ => rfl) nofun

theorem bind {action : Compiling α} {naive : Nat → Compiling α} {next : α → Compiling β}
    {naiveNext : Nat → α → Compiling β} {better : α → Prop} {good : β → Prop}
    (first : Lockstep workspace outer path inner graph own action naive better)
    (rest : ∀ value after ownAfter, better value →
      Mirrors workspace outer path inner after ownAfter →
      Lockstep workspace outer path inner after ownAfter (next value) (naiveNext · value) good) :
    Lockstep workspace outer path inner graph own (action >>= next)
      (fun depth => naive depth >>= naiveNext depth) good := by
  refine Ensures.bind (Ensures.mono first ?_ ?_)
  · rintro value middle ⟨holds, ownMiddle, settles, mirrors⟩
    apply Ensures.mono (rest value middle ownMiddle holds mirrors)
    · rintro result after ⟨good, ownAfter, settlesRest, mirrorsAfter⟩
      exact ⟨good, ownAfter, settles.bind settlesRest, mirrorsAfter⟩
    · intro halt after fails
      exact fails.map rfl fun ownAfter settlesRest => ⟨ownAfter, settles.bind settlesRest⟩
  · intro halt after fails
    exact fails.map rfl fun ownAfter settles => ⟨ownAfter, settles.bind_error⟩

theorem stateAt {next : ModuleState → Compiling β} {naiveNext : Nat → ModuleState → Compiling β}
    {good : β → Prop} (mirrors : Mirrors workspace outer path inner graph own)
    (rest : Lockstep workspace outer path inner graph own (next (graph.stateAt (.file path)))
      (naiveNext · (graph.stateAt (.file path))) good) :
    Lockstep workspace outer path inner graph own (Compiling.stateAt (.file path) >>= next)
      (fun depth => Compiling.stateAt (.file path) >>= naiveNext depth) good := by
  rw [← mirrors.stateAt_eq] at rest
  have same : next (graph.stateAt (.file path)) = next (own.stateAt (.file path)) := by
    rw [mirrors.stateAt_eq]
  change Lockstep workspace outer path inner graph own (next (graph.stateAt (.file path)))
    (naiveNext · (own.stateAt (.file path))) good
  rw [same]
  exact rest

theorem update {change : ModuleState → ModuleState}
    (mirrors : Mirrors workspace outer path inner graph own)
    (same : (graph.stateAt (.file path)).SameDeclarations (change (graph.stateAt (.file path)))) :
    Lockstep workspace outer path inner graph own (Compiling.update (.file path) change)
      (fun _ => Compiling.update (.file path) change) (fun _ => True) := by
  refine ⟨trivial, own.setState (.file path) (change (graph.stateAt (.file path))), ?_,
    mirrors.setState same⟩
  rw [← mirrors.stateAt_eq]
  exact .of_forall fun _ => rfl

theorem whileResolving {name : String} {cyclic : List (Path × String) → Halt}
    {action : Compiling α} {naive : Nat → Compiling α} (acyclic : workspace.Acyclic)
    (leads : outer.LeadsTo workspace path)
    (mirrors : Mirrors workspace outer path inner graph own)
    (inside : ∀ entered ownEntered,
      Mirrors workspace outer path (inner ++ [(path, name)]) entered ownEntered →
      Lockstep workspace outer path (inner ++ [(path, name)]) entered ownEntered action naive
        fun _ => True) :
    Lockstep workspace outer path inner graph own (Compiling.whileResolving path name cyclic action)
      (fun depth => Compiling.whileResolving path name cyclic (naive depth)) fun _ => True := by
  apply Ensures.whileResolving
  · intro chain blocked
    refine ⟨mirrors.cached, fun _ => ⟨own, .of_forall fun depth => ?_⟩⟩
    rw [outcome_whileResolving, mirrors.enter_error leads acyclic blocked]
  · intro entered enters
    rcases mirrors.enter enters with ⟨ownEntered, ownEnters, mirrorsEntered⟩
    apply Ensures.mono (inside entered ownEntered mirrorsEntered)
    · rintro value after ⟨holds, ownAfter, settles, mirrorsAfter⟩
      exact ⟨holds, ownAfter.leave, settles.whileResolving ownEnters, mirrorsAfter.leave⟩
    · intro halt after fails
      exact fails.map rfl fun ownAfter settles =>
        ⟨ownAfter.leave, settles.whileResolving ownEnters⟩

theorem forM {items : List ι} {action : ι → Compiling Unit} {naive : Nat → ι → Compiling Unit}
    (mirrors : Mirrors workspace outer path inner graph own)
    (step : ∀ item ∈ items, ∀ current ownCurrent,
      Mirrors workspace outer path inner current ownCurrent →
      Lockstep workspace outer path inner current ownCurrent (action item) (naive · item)
        fun _ => True) :
    Lockstep workspace outer path inner graph own (items.forM action)
      (fun depth => items.forM (naive depth)) fun _ => True := by
  induction items generalizing graph own with
  | nil => exact pure mirrors trivial
  | cons item rest induction =>
    apply bind (step item (List.mem_cons_self ..) graph own mirrors)
    intro _ after ownAfter _ mirrorsAfter
    exact induction mirrorsAfter fun other member => step other (List.mem_cons_of_mem _ member)

theorem mapM {items : List ι} {action : ι → Compiling α} {naive : Nat → ι → Compiling α}
    (mirrors : Mirrors workspace outer path inner graph own)
    (step : ∀ item ∈ items, ∀ current ownCurrent,
      Mirrors workspace outer path inner current ownCurrent →
      Lockstep workspace outer path inner current ownCurrent (action item) (naive · item)
        fun _ => True) :
    Lockstep workspace outer path inner graph own (items.mapM action)
      (fun depth => items.mapM (naive depth)) fun _ => True := by
  induction items generalizing graph own with
  | nil => exact pure mirrors trivial
  | cons item rest induction =>
    simp only [List.mapM_cons]
    apply bind (step item (List.mem_cons_self ..) graph own mirrors)
    intro value middle ownMiddle _ mirrorsMiddle
    refine bind (induction mirrorsMiddle fun other member =>
      step other (List.mem_cons_of_mem _ member)) ?_
    intro values after ownAfter _ mirrorsAfter
    exact pure mirrorsAfter trivial

end Lockstep

/-! ## Requests -/

/-- Requests on a shared graph that come to what the naive recursion comes to. A file may be asked
for when whatever is open leads to it, and it is finished then. -/
structure Calls.Agree (workspace : Workspace) (calls : Calls) : Prop where
  load : ∀ graph specifier importer location, graph.Cached workspace →
    (∀ target, workspace.resolver.resolve workspace.files specifier importer = .ok target →
      graph.LeadsTo workspace target) →
    Ensures graph (calls.load specifier importer location)
      (fun handle after => (∃ compiled, handle = .ready compiled) ∧ graph.Preserves after ∧
        after.Cached workspace ∧
        Recompilation.Answers workspace specifier importer location (.ok handle))
      fun halt after => after.Cached workspace ∧ (halt ≠ .exhausted →
        Recompilation.Answers workspace specifier importer location (.error halt))
  resolveOwner : ∀ outer path inner graph own owner, outer.LeadsTo workspace path →
    Mirrors workspace outer path inner graph own →
    Lockstep workspace outer path inner graph own (calls.resolveOwner (.file path) owner)
      (fun depth => (Recompilation.calls workspace depth).resolveOwner (.file path) owner)
      fun _ => True

/-- A file loads whatever a specifier means in it. -/
def Workspace.LoadsFor (workspace : Workspace) (path : Path) (specifier : String) : Prop :=
  ∀ target, workspace.resolver.resolve workspace.files specifier path = .ok target →
    workspace.Loads path target

namespace Mirrors

variable {workspace : Workspace} {outer : Graph} {path : Path} {inner : List (Path × String)}
  {graph own : Graph}

theorem loadsFor_import (mirrors : Mirrors workspace outer path inner graph own)
    {reference : ImportReference} (listed : reference ∈ (graph.stateAt (.file path)).imports) :
    workspace.LoadsFor path reference.specifier :=
  fun _ means => mirrors.loads (ModuleState.mem_askedFor_of_import listed) means

theorem loadsFor_composition (mirrors : Mirrors workspace outer path inner graph own)
    {owner specifier : String} {composition : Composition} {reference : Reference}
    (listed : composition ∈ (graph.stateAt (.file path)).compositionsOf owner)
    (refers : reference ∈ composition.references) (source : reference.source = .file specifier) :
    workspace.LoadsFor path specifier :=
  fun _ means => mirrors.loads (ModuleState.mem_askedFor_of_composition listed refers source) means

end Mirrors

namespace Resolution

variable {workspace : Workspace} {calls : Calls} {outer : Graph} {path : Path}
  {inner : List (Path × String)} {graph own : Graph}

theorem lockstep_load (agree : calls.Agree workspace) (leads : outer.LeadsTo workspace path)
    (mirrors : Mirrors workspace outer path inner graph own) {specifier : String}
    (loads : workspace.LoadsFor path specifier) (location : Location) :
    Lockstep workspace outer path inner graph own (calls.load specifier path location)
      (fun depth => (Recompilation.calls workspace depth).load specifier path location)
      fun handle => ∃ compiled, handle = .ready compiled := by
  refine Ensures.mono (agree.load graph specifier path location mirrors.cached
    fun target means => mirrors.leadsTo leads (loads target means)) ?_ ?_
  · rintro handle after ⟨isReady, preserves, cached, answers⟩
    exact ⟨isReady, own, answers own, mirrors.later preserves cached⟩
  · rintro halt after ⟨cached, fails⟩
    exact ⟨cached, fun answered => ⟨own, fails answered own⟩⟩

theorem outcome_ask_ready (compiled : CompiledModule) (name : String) (graph : Graph) :
    outcome (ask (.ready compiled) name) graph = (.ok (compiled.table.lookup name), graph) := rfl

/-- A finished file answers from its table, without asking the graph for anything. -/
theorem outcome_lookUp_ready (site : Site) (compiled : CompiledModule)
    (name requester specifier : String) (location : Location) :
    ∃ result, ∀ calls graph,
      outcome (lookUp calls site (.ready compiled) name requester specifier location) graph =
        (result, graph) := by
  cases found : compiled.table.get? name with
  | some entry =>
    refine ⟨.ok entry, fun calls graph => ?_⟩
    have answer : compiled.table.lookup name = .found entry := by rw [TokenTable.lookup, found]
    rw [lookUp, outcome_bind, outcome_ask_ready, answer]
    rfl
  | none =>
    refine ⟨.error (.failed ⟨site.path, location, .missingExport name specifier⟩),
      fun calls graph => ?_⟩
    have answer : compiled.table.lookup name = .missing := by rw [TokenTable.lookup, found]
    rw [lookUp, outcome_bind, outcome_ask_ready, answer]
    rfl

theorem lockstep_lookUp (mirrors : Mirrors workspace outer path inner graph own) {handle : Handle}
    (isReady : ∃ compiled, handle = .ready compiled) (name requester specifier : String)
    (location : Location) :
    Lockstep workspace outer path inner graph own
      (lookUp calls (.file path) handle name requester specifier location)
      (fun depth => lookUp (Recompilation.calls workspace depth) (.file path) handle name requester
        specifier location) fun _ => True := by
  rcases isReady with ⟨compiled, rfl⟩
  rcases outcome_lookUp_ready (.file path) compiled name requester specifier location with
    ⟨result, ends⟩
  exact .still mirrors (ends calls graph) (fun _ => ends _ own) fun _ _ => trivial

theorem lockstep_localNames (agree : calls.Agree workspace) (leads : outer.LeadsTo workspace path)
    (mirrors : Mirrors workspace outer path inner graph own) (name : String)
    (location : Location) :
    Lockstep workspace outer path inner graph own (localNames calls (.file path) name location)
      (fun depth => localNames (Recompilation.calls workspace depth) (.file path) name location)
      fun _ => True := by
  refine .bind (agree.resolveOwner outer path inner graph own name leads mirrors) ?_
  intro _ after ownAfter _ mirrorsAfter
  refine .stateAt mirrorsAfter ?_
  split
  · split
    · exact .fail mirrorsAfter
    · exact .pure mirrorsAfter trivial
  · exact .pure mirrorsAfter trivial
  · split
    · exact .fail mirrorsAfter
    · split
      · exact .fail mirrorsAfter
      · exact .fail mirrorsAfter

theorem lockstep_referenceNames (agree : calls.Agree workspace)
    (leads : outer.LeadsTo workspace path)
    (mirrors : Mirrors workspace outer path inner graph own) (owner : String)
    (location : Location) {reference : Reference}
    (loads : ∀ specifier, reference.source = .file specifier →
      workspace.LoadsFor path specifier) :
    Lockstep workspace outer path inner graph own
      (referenceNames calls (.file path) owner location reference)
      (fun depth => referenceNames (Recompilation.calls workspace depth) (.file path) owner location
        reference) fun _ => True := by
  rcases reference with ⟨name, source⟩
  cases source with
  | sameFile => exact lockstep_localNames agree leads mirrors name location
  | passThrough => exact .pure mirrors trivial
  | file specifier =>
    refine .bind (lockstep_load agree leads mirrors (loads specifier rfl) location) ?_
    intro handle loaded ownLoaded isReady mirrorsLoaded
    refine .bind (lockstep_lookUp mirrorsLoaded isReady name owner specifier location) ?_
    intro entry after ownAfter _ mirrorsAfter
    dsimp only
    split
    · exact .fail mirrorsAfter
    · exact .pure mirrorsAfter trivial

theorem lockstep_compose (agree : calls.Agree workspace) (leads : outer.LeadsTo workspace path)
    (mirrors : Mirrors workspace outer path inner graph own) (owner : String)
    {composition : Composition}
    (loads : ∀ reference ∈ composition.references, ∀ specifier,
      reference.source = .file specifier → workspace.LoadsFor path specifier) :
    Lockstep workspace outer path inner graph own (compose calls (.file path) owner composition)
      (fun depth => compose (Recompilation.calls workspace depth) (.file path) owner composition)
      fun _ => True := by
  refine .bind (.mapM mirrors ?_) ?_
  · intro reference member current ownCurrent mirrorsCurrent
    exact lockstep_referenceNames agree leads mirrorsCurrent owner composition.location
      (loads reference member)
  · intro parts after ownAfter _ mirrorsAfter
    exact .update mirrorsAfter ⟨rfl, rfl, rfl, rfl⟩

/-- A name is entered and left in both graphs, and its compositions are resolved in between. -/
theorem lockstep_resolveOwner (acyclic : workspace.Acyclic) (agree : calls.Agree workspace)
    (leads : outer.LeadsTo workspace path)
    (mirrors : Mirrors workspace outer path inner graph own) (owner : String) :
    Lockstep workspace outer path inner graph own (resolveOwner calls (.file path) owner)
      (fun depth => resolveOwner (Recompilation.calls workspace depth) (.file path) owner)
      fun _ => True := by
  refine .stateAt mirrors ?_
  dsimp only
  split
  · exact .pure mirrors trivial
  · refine .bind (.whileResolving acyclic leads mirrors ?_) ?_
    · intro entered ownEntered mirrorsEntered
      refine .forM mirrorsEntered ?_
      intro composition listed current ownCurrent mirrorsCurrent
      exact lockstep_compose agree leads mirrorsCurrent owner
        fun reference refers specifier source =>
          mirrors.loadsFor_composition listed refers source
    · intro _ after ownAfter _ mirrorsAfter
      exact .update mirrorsAfter ⟨rfl, rfl, rfl, rfl⟩

theorem lockstep_resolveImport (agree : calls.Agree workspace)
    (leads : outer.LeadsTo workspace path)
    (mirrors : Mirrors workspace outer path inner graph own) {reference : ImportReference}
    (loads : workspace.LoadsFor path reference.specifier) :
    Lockstep workspace outer path inner graph own (resolveImport calls (.file path) reference)
      (fun depth => resolveImport (Recompilation.calls workspace depth) (.file path) reference)
      fun _ => True := by
  refine .bind (lockstep_load agree leads mirrors loads reference.location) ?_
  intro handle loaded ownLoaded isReady mirrorsLoaded
  refine .bind (lockstep_lookUp mirrorsLoaded isReady _ _ _ _) ?_
  intro entry after ownAfter _ mirrorsAfter
  exact .update mirrorsAfter (ModuleState.sameDeclarations_recordImported _ _ _)

/-- A whole file is resolved in the shared graph as it is in a graph of its own. -/
theorem lockstep_resolve (agree : calls.Agree workspace) (leads : outer.LeadsTo workspace path)
    (mirrors : Mirrors workspace outer path inner graph own) :
    Lockstep workspace outer path inner graph own (resolve calls (.file path))
      (fun depth => resolve (Recompilation.calls workspace depth) (.file path)) fun _ => True := by
  refine .stateAt mirrors (.bind (.forM mirrors ?_) ?_)
  · intro reference listed current ownCurrent mirrorsCurrent
    exact lockstep_resolveImport agree leads mirrorsCurrent (mirrors.loadsFor_import listed)
  intro _ imported ownImported _ mirrorsImported
  refine .bind (.update mirrorsImported (ModuleState.sameDeclarations_settleLiterals _ [])) ?_
  intro _ settled ownSettled _ mirrorsSettled
  refine .stateAt mirrorsSettled (.forM mirrorsSettled ?_)
  intro owner _ current ownCurrent mirrorsCurrent
  exact agree.resolveOwner outer path inner current ownCurrent owner leads mirrorsCurrent

end Resolution

end ScopedStyles
