import ScopedStyles.Proofs.Caching.Lockstep
import ScopedStyles.Proofs.Graph.Bounded

/-!
Sharing is transparent. When files do not load each other in a circle, every request on a shared
graph comes to what the naive recursion comes to, and so to what it comes to on an empty graph. It
does not matter what has been compiled before, nor whether a file is compiled for itself or because
another one asks for it.
-/

namespace ScopedStyles

open Compiling ScopedStyles.Graph

/-! ## Requests at every depth -/

namespace Compilation

variable {workspace : Workspace} {calls : Calls} {graph : Graph} {path : Path} {source : String}

/-- A file that nobody has asked for is compiled to what the naive recursion makes of its text. -/
theorem recompiles_compile (agree : calls.Agree workspace) (cached : graph.Cached workspace)
    (leads : graph.LeadsTo workspace path) (absent : graph.slots.get? (.file path) = none)
    (readable : workspace.files.read path = .ok source) :
    Ensures graph (compile workspace (Resolution.resolve calls) path source)
      (fun compiled after => graph.Preserves after ∧ after.Cached workspace ∧
        workspace.Recompiles path source (.ok compiled))
      fun halt after => after.Cached workspace ∧ (halt ≠ .exhausted →
        workspace.Recompiles path source (.error halt)) := by
  unfold Ensures
  rw [outcome_compile]
  cases collects : (workspace.collection path source).1 with
  | error failure =>
    exact ⟨cached.opening path source, fun _ => Recompilation.recompiles_of_malformed collects⟩
  | ok sheet =>
    -- The graph that the file is opened in is the outer graph of the lockstep.
    have mirrors := Mirrors.opening cached readable collects
    have resolves := Resolution.lockstep_resolve agree leads mirrors
    unfold Lockstep Ensures at resolves
    dsimp only
    generalize outcome (Resolution.resolve calls (.file path))
      (graph.opening workspace path source) = ending at resolves
    rcases ending with ⟨result, after⟩
    cases result with
    | error halt =>
      rcases resolves with ⟨cachedAfter, fails⟩
      refine ⟨cachedAfter, fun answered => ?_⟩
      rcases fails answered with ⟨ownAfter, settles⟩
      exact Recompilation.recompiles_of_settles_error collects settles
    | ok _ =>
      rcases resolves with ⟨_, ownAfter, settles, mirrorsAfter⟩
      have recompiles := Recompilation.recompiles_of_settles collects settles
      rw [mirrorsAfter.stateAt_eq] at recompiles
      exact ⟨mirrorsAfter.closing absent, mirrorsAfter.cached.closing readable recompiles,
        recompiles⟩

/-- A file that has been asked for is finished: an open one would load itself. -/
theorem not_isOpen_of_leadsTo (acyclic : workspace.Acyclic) (leads : graph.LeadsTo workspace path) :
    ¬ graph.IsOpen (.file path) := by
  intro isOpen
  rcases leads.opened _ isOpen with ⟨other, same, reaches⟩
  cases same
  exact acyclic path reaches

/-- A request finds what the naive recursion would compile, or compiles it. -/
theorem agree_load (acyclic : workspace.Acyclic) (agree : calls.Agree workspace)
    (cached : graph.Cached workspace) (specifier : String) (importer : Path) (location : Location)
    (leads : ∀ target, workspace.resolver.resolve workspace.files specifier importer = .ok target →
      graph.LeadsTo workspace target) :
    Ensures graph (load workspace calls specifier importer location)
      (fun handle after => (∃ compiled, handle = .ready compiled) ∧ graph.Preserves after ∧
        after.Cached workspace ∧
        Recompilation.Answers workspace specifier importer location (.ok handle))
      fun halt after => after.Cached workspace ∧ (halt ≠ .exhausted →
        Recompilation.Answers workspace specifier importer location (.error halt)) := by
  unfold load
  cases means : workspace.resolver.resolve workspace.files specifier importer with
  | error reason =>
    exact .fail ⟨cached, fun _ => Recompilation.answers_of_unresolved means⟩
  | ok path =>
    have leads := leads path means
    refine .get ?_
    dsimp only
    cases found : graph.slots.get? (.file path) with
    | some slot =>
      cases slot with
      | inFlight state => exact absurd ⟨state, found⟩ (not_isOpen_of_leadsTo acyclic leads)
      | finished compiled =>
        rcases cached _ _ found with ⟨source, same, readable, recompiles⟩
        cases same
        rw [Graph.handle?, found]
        refine .bind (.note (.bind (.note ⟨⟨compiled, rfl⟩, .same rfl rfl, cached, ?_⟩)))
        exact Recompilation.answers_of_recompiles means readable recompiles
    | none =>
      rw [Graph.handle?, found]
      refine .bind (.note ?_)
      -- Events change neither slots nor names, so what holds of the graph holds with them.
      cases readable : workspace.files.read path with
      | error reason =>
        exact .fail ⟨cached, fun _ => Recompilation.answers_of_unreadable means readable⟩
      | ok source =>
        refine .bind (.note (.bind ?_))
        refine Ensures.mono (recompiles_compile agree ?_ ?_ found readable) ?_ ?_
        · exact cached
        · exact ⟨leads.opened, leads.resolving⟩
        · rintro compiled after ⟨preserves, cachedAfter, recompiles⟩
          refine .bind (.note ⟨⟨compiled, rfl⟩, ?_, cachedAfter, ?_⟩)
          · exact ⟨preserves.resolving, preserves.opened⟩
          · exact Recompilation.answers_of_recompiles means readable recompiles
        · rintro halt after ⟨cachedAfter, fails⟩
          refine ⟨cachedAfter, fun answered => ?_⟩
          exact Recompilation.answers_of_recompiles means readable (fails answered)

/-- At every depth, requests come to what the naive recursion comes to. -/
theorem agree_calls (acyclic : workspace.Acyclic) :
    ∀ depth, (Compilation.calls workspace depth).Agree workspace
  | 0 =>
    { load := fun _ _ _ _ cached _ => ⟨cached, fun answered => absurd rfl answered⟩
      resolveOwner := fun _ _ _ _ _ _ _ mirrors =>
        ⟨mirrors.cached, fun answered => absurd rfl answered⟩ }
  | depth + 1 =>
    have deeper := agree_calls acyclic depth
    { load := fun _ specifier importer location cached leads =>
        agree_load acyclic deeper cached specifier importer location leads
      resolveOwner := fun _ _ _ _ _ owner leads mirrors =>
        .deeper (Resolution.lockstep_resolveOwner acyclic deeper leads mirrors owner) }

end Compilation

/-! ## Sequences of requests -/

/-- A request for the file that a specifier means. -/
structure LoadRequest where
  specifier : String
  importer : Path
  location : Location

namespace LoadRequest

/-- What a request comes to on an empty graph. -/
def alone (workspace : Workspace) (request : LoadRequest) : Except Halt Handle :=
  (outcome (Graph.load workspace request.specifier request.importer request.location) .empty).1

/-- What the naive recursion makes of a request, in the end. -/
def Recompiles (workspace : Workspace) (request : LoadRequest) (result : Except Halt Handle) :
    Prop :=
  Recompilation.Answers workspace request.specifier request.importer request.location result

end LoadRequest

def upToFailure : List (Except ε α) → List (Except ε α)
  | [] => []
  | .ok value :: rest => .ok value :: upToFailure rest
  | .error failure :: _ => [.error failure]

namespace Graph

/-- Requests that are made one after the other on one graph, up to the first that fails. -/
def loadAll (workspace : Workspace) : List LoadRequest → Graph → List (Except Halt Handle) × Graph
  | [], graph => ([], graph)
  | request :: rest, graph =>
    match outcome (load workspace request.specifier request.importer request.location) graph with
    | (.ok handle, after) =>
      let (results, last) := loadAll workspace rest after
      (.ok handle :: results, last)
    | (.error halt, after) => ([.error halt], after)

variable {workspace : Workspace} {graph after : Graph}

theorem Cached.filed (cached : graph.Cached workspace) : graph.Filed := by
  intro site compiled found
  rcases cached site compiled found with ⟨_, same, _⟩
  exact same

/-- Nothing is being compiled, and no name is being resolved. -/
structure Resting (graph : Graph) : Prop where
  opened : ∀ site, ¬ graph.IsOpen site
  resolving : graph.resolving = []

theorem resting_empty : Graph.empty.Resting where
  opened _ isOpen := by
    rcases isOpen with ⟨_, found⟩
    cases found
  resolving := rfl

theorem Resting.leadsTo (resting : graph.Resting) (workspace : Workspace) (path : Path) :
    graph.LeadsTo workspace path where
  opened site isOpen := absurd isOpen (resting.opened site)
  resolving entry member := by
    rw [resting.resolving] at member
    cases member

theorem Resting.later (resting : graph.Resting) (preserves : graph.Preserves after) :
    after.Resting where
  opened site isOpen := by
    rcases isOpen with ⟨state, found⟩
    exact resting.opened site ⟨state, (preserves.opened site state).mp found⟩
  resolving := preserves.resolving.trans resting.resolving

/-- A request on a graph at rest comes to what the naive recursion comes to. The graph rests again
when the request ends well, and what is finished in it is sound either way. -/
theorem recompiles_load (acyclic : workspace.Acyclic) (resting : graph.Resting)
    (cached : graph.Cached workspace) (request : LoadRequest) :
    Ensures graph (load workspace request.specifier request.importer request.location)
      (fun handle after => after.Resting ∧ after.Cached workspace ∧
        request.Recompiles workspace (.ok handle))
      fun halt after => after.Cached workspace ∧ request.Recompiles workspace (.error halt) := by
  have agree := Compilation.agree_calls acyclic (Compilation.depthLimit workspace graph)
  have loads := agree.load graph request.specifier request.importer request.location cached
    fun target _ => resting.leadsTo workspace target
  have answered : (outcome (load workspace request.specifier request.importer request.location)
      graph).1 ≠ .error .exhausted :=
    load_ne_exhausted cached.filed request.specifier request.importer request.location
  unfold Ensures at *
  rw [outcome_load] at *
  generalize outcome _ graph = ending at *
  rcases ending with ⟨result, after⟩
  cases result with
  | ok handle =>
    rcases loads with ⟨_, preserves, cachedAfter, answers⟩
    exact ⟨resting.later preserves, cachedAfter, answers⟩
  | error halt =>
    rcases loads with ⟨cachedAfter, fails⟩
    exact ⟨cachedAfter, fails fun isExhausted => answered (congrArg _ isExhausted)⟩

theorem recompiles_alone (acyclic : workspace.Acyclic) (request : LoadRequest) :
    request.Recompiles workspace (request.alone workspace) := by
  have loads := recompiles_load acyclic resting_empty (.empty workspace) request
  apply Ensures.result
  apply Ensures.mono loads
  · exact fun _ _ ends => ends.2.2
  · exact fun _ _ ends => ends.2

theorem loadAll_eq_alone (acyclic : workspace.Acyclic) (requests : List LoadRequest)
    (resting : graph.Resting) (cached : graph.Cached workspace) :
    (loadAll workspace requests graph).1 =
        upToFailure (requests.map (LoadRequest.alone workspace)) ∧
      (loadAll workspace requests graph).2.Cached workspace := by
  induction requests generalizing graph with
  | nil => exact ⟨rfl, cached⟩
  | cons request rest induction =>
    have ensured := recompiles_load acyclic resting cached request
    have alone := recompiles_alone acyclic request
    unfold Ensures at ensured
    rw [loadAll, List.map_cons]
    generalize outcome _ graph = ending at *
    rcases ending with ⟨result, after⟩
    cases result with
    | ok handle =>
      rcases ensured with ⟨restingAfter, cachedAfter, recompiles⟩
      rcases induction restingAfter cachedAfter with ⟨same, cachedLast⟩
      rw [alone.unique recompiles]
      exact ⟨congrArg (.ok handle :: ·) same, cachedLast⟩
    | error halt =>
      rcases ensured with ⟨cachedAfter, recompiles⟩
      rw [alone.unique recompiles]
      exact ⟨rfl, cachedAfter⟩

theorem outcome_compile (workspace : Workspace) (path : Path) (source : String) (graph : Graph) :
    outcome (compile workspace path source) graph =
      outcome (Compilation.compile workspace (Resolution.resolve (Compilation.calls workspace
        (Compilation.depthLimit workspace (graph.opening workspace path source)))) path source)
        graph := by
  rw [compile, Compilation.outcome_compile, Compilation.outcome_compile,
    Compilation.outcome_resolve]

/-- A file that is compiled for itself comes to what the naive recursion makes of its text. -/
theorem recompiles_entry (acyclic : workspace.Acyclic) {path : Path} {source : String}
    (readable : workspace.files.read path = .ok source) :
    workspace.Recompiles path source (outcome (compile workspace path source) .empty).1 := by
  have agree := Compilation.agree_calls acyclic
    (Compilation.depthLimit workspace (Graph.empty.opening workspace path source))
  have compiles := Compilation.recompiles_compile agree (.empty workspace)
    (leadsTo_empty workspace path) rfl readable
  have answered : (outcome (compile workspace path source) .empty).1 ≠ .error .exhausted :=
    compile_ne_exhausted .empty path source
  rw [outcome_compile] at *
  unfold Ensures at compiles
  generalize outcome _ Graph.empty = ending at *
  rcases ending with ⟨result, after⟩
  cases result with
  | ok compiled => exact compiles.2.2
  | error halt => exact compiles.2 fun isExhausted => answered (congrArg _ isExhausted)

/-- Sharing is transparent for files that do not load each other in a circle. Requests on one graph,
up to the first that fails, come to what each of them comes to on an empty graph; this is what the
naive recursion comes to at every depth from some depth on, and never a lack of depth. A file that
is compiled for itself comes to what the naive recursion makes of its text, and so does every file
that has been finished on the way. -/
theorem load_is_transparent (acyclic : workspace.Acyclic) (requests : List LoadRequest) :
    (loadAll workspace requests .empty).1 =
        upToFailure (requests.map (LoadRequest.alone workspace)) ∧
      (∀ request : LoadRequest, request.alone workspace ≠ .error .exhausted ∧
        request.Recompiles workspace (request.alone workspace)) ∧
      (∀ path source, workspace.files.read path = .ok source →
        workspace.Recompiles path source (outcome (compile workspace path source) .empty).1) ∧
      ∀ path compiled,
        (loadAll workspace requests .empty).2.slots.get? (.file path) = some (.finished compiled) →
        ∃ source, workspace.files.read path = .ok source ∧
          (outcome (compile workspace path source) .empty).1 = .ok compiled := by
  rcases loadAll_eq_alone acyclic requests resting_empty (.empty workspace) with ⟨same, cached⟩
  refine ⟨same, fun request => ⟨?_, recompiles_alone acyclic request⟩, ?_, ?_⟩
  · exact load_ne_exhausted .empty request.specifier request.importer request.location
  · exact fun path source readable => recompiles_entry acyclic readable
  · intro path compiled found
    rcases cached _ _ found with ⟨source, isFile, readable, recompiles⟩
    cases isFile
    exact ⟨source, readable, (recompiles_entry acyclic readable).unique recompiles⟩

/-- Files do not load each other in a circle if what a file loads ranks lower. -/
theorem acyclic_of_rank (rank : Path → Nat)
    (down : ∀ file ∈ workspace.files.contents.entries,
      ∀ specifier ∈ (workspace.collection file.1 file.2).2.state.askedFor,
        ∀ target ∈ (workspace.resolver.resolve workspace.files specifier file.1).toOption,
          rank target < rank file.1) : workspace.Acyclic := by
  have step : ∀ path target, workspace.Loads path target → rank path > rank target := by
    rintro path target ⟨source, _, specifier, readable, _, asks, means⟩
    apply down (path, source) (entry_of_read readable) specifier asks target
    rw [means]
    rfl
  intro path circle
  have descends : Relation.TransGen (· > ·) (rank path) (rank path) := circle.lift rank step
  rw [Relation.transGen_eq_self] at descends
  exact Nat.lt_irrefl _ descends

/-- Three files, one of which loads the others. -/
def gallery : Workspace where
  options := { Options.standard with namePattern := .template "[name]_[local]" }
  files := .ofList .top [("/a.css", ".base\x7b\x7d"),
    ("/b.css", ".card\x7bcomposes:base from './a.css'\x7d"),
    ("/c.css", ":import('./a.css')\x7broot:base\x7d.tile\x7bcomposes:card from './b.css'\x7d")]
  resolver := .nearest

/-- Requests for these files: a dependency after the file that needs it, one for a file that does
not exist, and one after this failure. -/
def visits : List LoadRequest :=
  ["./c.css", "./a.css", "./d.css", "./b.css"].map (⟨·, .parse "/main.css", .start⟩)

theorem gallery_is_transparent : gallery.Acyclic ∧
    (loadAll gallery visits .empty).1 = upToFailure (visits.map (LoadRequest.alone gallery)) ∧
    (loadAll gallery visits .empty).1.map Except.isOk = [true, true, false] ∧
    (loadAll gallery visits .empty).2.processed = 3 := by
  have acyclic : gallery.Acyclic := by
    apply acyclic_of_rank fun path => ["/a.css", "/b.css", "/c.css"].idxOf path.text
    decide +kernel
  have runs : (loadAll gallery visits .empty).1.map Except.isOk = [true, true, false] ∧
      (loadAll gallery visits .empty).2.processed = 3 := by decide +kernel
  exact ⟨acyclic, (load_is_transparent acyclic visits).1, runs⟩

end Graph

end ScopedStyles
