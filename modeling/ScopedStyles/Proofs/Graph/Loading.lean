import ScopedStyles.Proofs.Graph.Resolving
import ScopedStyles.Proofs.Module.Records

/-!
Loading and compiling files under a contract. A file is opened with what is collected from its
text, resolved, and closed; a file that has been asked for before is handed out as it is.
-/

namespace ScopedStyles

open Compiling

namespace Graph

/-- A graph with a file opened, and what is collected from its text at its site. -/
def opening (graph : Graph) (workspace : Workspace) (path : Path) (source : String) : Graph :=
  let collection := (workspace.collection path source).2
  collection.malformed.foldl
    (fun graph rule => graph.record (.malformedValue path rule.1 rule.2))
    (((graph.setState (.file path) .empty).record (.started path)).setState (.file path)
      collection.state)

def closing (graph : Graph) (workspace : Workspace) (path : Path) (sheet : Stylesheet) : Graph :=
  (graph.finish (workspace.closed path (graph.stateAt (.file path)) sheet)).record (.finished path)

theorem slots_foldl_record {rules : List ι} (event : ι → GraphEvent) (graph : Graph) :
    (rules.foldl (fun graph rule => graph.record (event rule)) graph).slots = graph.slots := by
  induction rules generalizing graph with
  | nil => rfl
  | cons rule rest induction => exact induction (graph.record (event rule))

theorem resolving_foldl_record {rules : List ι} (event : ι → GraphEvent) (graph : Graph) :
    (rules.foldl (fun graph rule => graph.record (event rule)) graph).resolving =
      graph.resolving := by
  induction rules generalizing graph with
  | nil => rfl
  | cons rule rest induction => exact induction (graph.record (event rule))

theorem get?_opening (graph : Graph) (workspace : Workspace) (path : Path) (source : String)
    (site : Site) :
    (graph.opening workspace path source).slots.get? site =
      if site = .file path then some (.inFlight (workspace.collection path source).2.state)
      else graph.slots.get? site := by
  rw [opening, slots_foldl_record, get?_setState]
  split
  · rfl
  · rename_i different
    exact (get?_setState graph (.file path) site .empty).trans (if_neg different)

theorem resolving_opening (graph : Graph) (workspace : Workspace) (path : Path)
    (source : String) : (graph.opening workspace path source).resolving = graph.resolving :=
  resolving_foldl_record _ _

theorem isOpen_opening (graph : Graph) (workspace : Workspace) (path : Path) (source : String) :
    (graph.opening workspace path source).IsOpen (.file path) :=
  ⟨_, (get?_opening graph workspace path source (.file path)).trans (if_pos rfl)⟩

theorem stateAt_opening (graph : Graph) (workspace : Workspace) (path : Path) (source : String) :
    (graph.opening workspace path source).stateAt (.file path) =
      (workspace.collection path source).2.state :=
  stateAt_of_get? ((get?_opening graph workspace path source (.file path)).trans (if_pos rfl))

theorem has_opening (graph : Graph) (workspace : Workspace) (path other : Path)
    (source : String) :
    (graph.opening workspace path source).has other ↔ other = path ∨ graph.has other := by
  have contained := OrderedMap.contains_iff_get? (graph.opening workspace path source).slots
    (.file other)
  rw [get?_opening] at contained
  apply contained.trans
  by_cases equal : other = path
  · simp [equal]
  · simp only [Site.file.injEq, equal, ↓reduceIte, false_or]
    exact (OrderedMap.contains_iff_get? _ _).symm

theorem get?_closing (graph : Graph) (workspace : Workspace) (path : Path) (sheet : Stylesheet)
    (site : Site) :
    (graph.closing workspace path sheet).slots.get? site =
      if site = .file path then
        some (.finished (workspace.closed path (graph.stateAt (.file path)) sheet))
      else graph.slots.get? site :=
  OrderedMap.get?_insert graph.slots (.file path) site _

theorem has_closing (graph : Graph) (workspace : Workspace) (path other : Path)
    (sheet : Stylesheet) :
    (graph.closing workspace path sheet).has other ↔ other = path ∨ graph.has other := by
  have contained := OrderedMap.contains_insert graph.slots (.file path) (.file other)
    (.finished (workspace.closed path (graph.stateAt (.file path)) sheet))
  apply (Eq.to_iff (congrArg (· = true) contained)).trans
  simp [Graph.has]

variable {workspace : Workspace} {graph : Graph} {path : Path} {source : String}

/-- Opening a file that nobody has asked for leaves the others alone. -/
theorem Evolves.opening (workspace : Workspace) (source : String) (held : List (Path × String))
    (absent : graph.slots.get? (.file path) = none) :
    graph.Evolves held (graph.opening workspace path source) where
  resolving := resolving_opening graph workspace path source
  opened site state found := by
    rw [get?_opening, if_neg]
    · exact ⟨state, found, .refl⟩
    · rintro rfl
      rw [absent] at found
      cases found
  finished site compiled found := by
    rw [get?_opening, if_neg]
    · exact found
    · rintro rfl
      rw [absent] at found
      cases found

/-- A file that is opened, developed and closed is the result of compiling its text. -/
theorem Completes.closing {after : Graph} {held : List (Path × String)} {sheet : Stylesheet}
    (absent : graph.slots.get? (.file path) = none)
    (readable : workspace.files.read path = .ok source)
    (collects : (workspace.collection path source).1 = .ok sheet)
    (resolved : (graph.opening workspace path source).Completes workspace held after)
    (complete : (after.stateAt (.file path)).Complete) :
    graph.Completes workspace held (after.closing workspace path sheet) where
  resolving := resolved.resolving.trans (resolving_opening graph workspace path source)
  opened site state found := by
    rcases (Evolves.opening workspace source held absent).opened site state found with
      ⟨middle, foundMiddle, developsMiddle⟩
    rcases resolved.opened site middle foundMiddle with ⟨later, foundLater, develops⟩
    rw [get?_closing, if_neg]
    · exact ⟨later, foundLater, developsMiddle.trans develops⟩
    · rintro rfl
      rw [absent] at found
      cases found
  finished site compiled found := by
    rw [get?_closing, if_neg]
    · exact resolved.finished site compiled
        ((Evolves.opening workspace source held absent).finished site compiled found)
    · rintro rfl
      rw [absent] at found
      cases found
  added site slot absentBefore found := by
    rw [get?_closing] at found
    split at found
    · rename_i isFile
      cases found
      refine ⟨_, source, isFile, rfl, readable, ?_, complete, sheet, collects, rfl⟩
      have develops := resolved.develops (isOpen_opening graph workspace path source)
      rw [stateAt_opening] at develops
      exact develops.mono fun _ => False.elim
    · rename_i different
      refine resolved.added site slot ?_ found
      rw [get?_opening, if_neg different]
      exact absentBefore

end Graph

/-! ## Compiling a file -/

namespace Compiling

theorem outcome_forM_note {rules : List ι} (event : ι → GraphEvent) (graph : Graph) :
    outcome (rules.forM fun rule => note (event rule)) graph =
      (.ok (), rules.foldl (fun graph rule => graph.record (event rule)) graph) := by
  induction rules generalizing graph with
  | nil => rfl
  | cons rule rest induction =>
    change outcome (note (event rule) >>= fun _ =>
      rest.forM fun rule => note (event rule)) graph = _
    rw [outcome_bind]
    exact induction (graph.record (event rule))

end Compiling

namespace Compilation

theorem outcome_collect_at (context : FileContext) (site : Site) (graph : Graph) :
    outcome (collect context site) graph =
      (match (Collect.run context (parse context.source)).1 with
        | .error failure => .error (.failed failure)
        | .ok sheet => .ok sheet,
        (Collect.run context (parse context.source)).2.malformed.foldl
          (fun graph rule => graph.record (.malformedValue context.path rule.1 rule.2))
          (graph.setState site (Collect.run context (parse context.source)).2.state)) := by
  unfold collect
  generalize Collect.run context (parse context.source) = collected
  rcases collected with ⟨result, collection⟩
  dsimp only
  rw [outcome_bind]
  change outcome ((collection.malformed.forM fun rule =>
    note (.malformedValue context.path rule.1 rule.2)) >>= fun _ => _) _ = _
  rw [outcome_bind, outcome_forM_note]
  cases result <;> rfl

theorem outcome_collect (workspace : Workspace) (path : Path) (source : String) (graph : Graph) :
    outcome (collect (workspace.context path source) (.file path))
        ((graph.setState (.file path) .empty).record (.started path)) =
      (match (workspace.collection path source).1 with
        | .error failure => .error (.failed failure)
        | .ok sheet => .ok sheet, graph.opening workspace path source) :=
  outcome_collect_at (workspace.context path source) (.file path) _

theorem outcome_finish (workspace : Workspace) (path : Path) (sheet : Stylesheet) (graph : Graph) :
    outcome (finish workspace.options path sheet) graph =
      (.ok (workspace.closed path (graph.stateAt (.file path)) sheet),
        graph.closing workspace path sheet) := rfl

theorem outcome_compile (workspace : Workspace) (resolve : Site → Compiling Unit) (path : Path)
    (source : String) (graph : Graph) :
    outcome (compile workspace resolve path source) graph =
      match (workspace.collection path source).1 with
      | .error failure => (.error (.failed failure), graph.opening workspace path source)
      | .ok sheet =>
        match outcome (resolve (.file path)) (graph.opening workspace path source) with
        | (.error halt, after) => (.error halt, after)
        | (.ok _, after) =>
          (.ok (workspace.closed path (after.stateAt (.file path)) sheet),
            after.closing workspace path sheet) := by
  unfold compile
  rw [outcome_bind]
  change outcome (_ >>= _) ((graph.setState (.file path) .empty).record (.started path)) = _
  rw [outcome_bind, outcome_collect]
  cases (workspace.collection path source).1 with
  | error failure => rfl
  | ok sheet =>
    dsimp only
    rw [outcome_bind]
    generalize outcome (resolve (.file path)) (graph.opening workspace path source) = resolved
    rcases resolved with ⟨result, after⟩
    cases result with
    | error halt => rfl
    | ok _ => exact outcome_finish workspace path sheet after

end Compilation

/-! ## Nested requests -/

/-- A file that has just been opened may be resolved. -/
structure Contract.MayStart {workspace : Workspace} (contract : Contract workspace)
    (opened : Graph) (path : Path) (source : String) : Prop where
  keeps : contract.keeps opened
  mayImport : ∀ reference ∈ (workspace.collection path source).2.state.imports,
    contract.MayTake opened reference.specifier path reference.imported
  mayOwn : ∀ owner, (workspace.collection path source).2.state.compositions.contains owner →
    contract.mayResolve opened (.file path) owner

/-- Files that are opened under one contract may be compiled under another one. -/
structure Contract.Opens {workspace : Workspace} (outer inner : Contract workspace) : Prop where
  excuses : ∀ halt, inner.blames halt → outer.blames halt
  opened : ∀ {graph specifier importer path source}, outer.keeps graph →
    outer.mayLoad graph specifier importer →
    workspace.resolver.resolve workspace.files specifier importer = .ok path →
    graph.slots.get? (.file path) = none → workspace.files.read path = .ok source →
    ∀ sheet, (workspace.collection path source).1 = .ok sheet →
      inner.MayStart (graph.opening workspace path source) path source
  closed : ∀ {graph : Graph} {path source sheet}, inner.keeps graph →
    graph.IsOpen (.file path) → workspace.files.read path = .ok source →
    (workspace.collection path source).1 = .ok sheet →
    (workspace.collection path source).2.state.Develops (fun _ => False)
      (graph.stateAt (.file path)) →
    (∀ owner, (graph.stateAt (.file path)).compositions.contains owner →
      owner ∉ (graph.stateAt (.file path)).pending) →
    outer.keeps (graph.closing workspace path sheet)

namespace Compilation

open ScopedStyles.Graph

variable {workspace : Workspace} {graph : Graph} {outer inner : Contract workspace} {calls : Calls}

theorem advances_resolve_opening (meets : calls.Meet inner) {path : Path} {source : String}
    (starts : inner.MayStart (graph.opening workspace path source) path source) :
    Advances inner graph.resolving (graph.opening workspace path source)
      (Resolution.resolve calls (.file path)) fun _ after =>
        (after.stateAt (.file path)).Complete := by
  rcases starts with ⟨keeps, mayImport, mayOwn⟩
  rw [← stateAt_opening graph] at mayImport mayOwn
  have isOpen := isOpen_opening graph workspace path source
  have resolved := Resolution.advances_resolve meets keeps isOpen mayImport mayOwn
  rw [resolving_opening] at resolved
  exact resolved

theorem advances_compile (opens : outer.Opens inner) (meets : calls.Meet inner)
    {specifier : String} {importer path : Path} {source : String} (keeps : outer.keeps graph)
    (may : outer.mayLoad graph specifier importer)
    (means : workspace.resolver.resolve workspace.files specifier importer = .ok path)
    (absent : graph.slots.get? (.file path) = none)
    (readable : workspace.files.read path = .ok source) :
    Advances outer graph.resolving graph
      (compile workspace (Resolution.resolve calls) path source) fun compiled after =>
        compiled.path = path ∧ after.Offers (.ready compiled) := by
  have isOpen := isOpen_opening graph workspace path source
  unfold Advances Ensures
  rw [outcome_compile]
  cases collects : (workspace.collection path source).1 with
  | error failure =>
    exact ⟨.opening workspace source _ absent,
      outer.plain failure (Collect.kind_of_error _ collects)⟩
  | ok sheet =>
    have resolved := advances_resolve_opening meets
      (opens.opened keeps may means absent readable sheet collects)
    unfold Advances Ensures at resolved
    dsimp only
    generalize outcome (Resolution.resolve calls (.file path))
      (graph.opening workspace path source) = ending at resolved
    rcases ending with ⟨result, after⟩
    cases result with
    | error halt =>
      exact ⟨(Evolves.opening workspace source _ absent).trans resolved.1,
        opens.excuses halt resolved.2⟩
    | ok _ =>
      rcases resolved with ⟨completes, keepsAfter, complete⟩
      have develops := completes.develops isOpen
      rw [stateAt_opening] at develops
      refine ⟨.closing absent readable collects completes complete, ?_, rfl, ?_⟩
      · exact opens.closed keepsAfter (completes.isOpen isOpen) readable collects
          (develops.mono fun _ => False.elim) complete.released
      · exact (get?_closing after workspace path sheet (.file path)).trans (if_pos rfl)

theorem advances_load (opens : outer.Opens inner) (meets : calls.Meet inner) {specifier : String}
    {importer : Path} {location : Location} (keeps : outer.keeps graph)
    (may : outer.mayLoad graph specifier importer) :
    Advances outer graph.resolving graph (load workspace calls specifier importer location)
      fun handle after => after.Offers handle ∧
        workspace.resolver.resolve workspace.files specifier importer = .ok handle.path := by
  unfold load
  cases means : workspace.resolver.resolve workspace.files specifier importer with
  | error reason => exact .fail (outer.plain _ (by simp [Cause.kind]))
  | ok path =>
    refine .get ?_
    dsimp only
    cases found : graph.slots.get? (.file path) with
    | some slot =>
      cases slot with
      | inFlight state =>
        rw [Graph.handle?, found]
        refine .bind (.note keeps (.bind (.note (outer.recorded _ keeps) (.pure ?_ ⟨?_, rfl⟩))))
        · exact outer.recorded _ (outer.recorded _ keeps)
        · exact ⟨state, found⟩
      | finished compiled =>
        rw [Graph.handle?, found]
        cases outer.filed keeps found
        refine .bind (.note keeps (.bind (.note (outer.recorded _ keeps) (.pure ?_ ⟨?_, rfl⟩))))
        · exact outer.recorded _ (outer.recorded _ keeps)
        · exact found
    | none =>
      rw [Graph.handle?, found]
      refine .bind (.note keeps ?_)
      have keeps := outer.recorded (.resolved specifier importer path) keeps
      have may :=
        outer.loadable (.record workspace [] graph (.resolved specifier importer path)) may
      cases readable : workspace.files.read path with
      | error reason => exact .fail (outer.plain _ (by simp [Cause.kind]))
      | ok source =>
        refine .bind (.note keeps (.bind ?_))
        have keeps := outer.recorded (.read path) keeps
        have may := outer.loadable (.record workspace [] _ (.read path)) may
        apply (advances_compile opens meets keeps may means found readable).weaken
        rintro compiled after _ keepsAfter ⟨rfl, offers⟩
        refine .bind (.note keepsAfter (.pure (outer.recorded _ keepsAfter) ⟨?_, rfl⟩))
        exact offers

/-- Requests that are not answered meet a contract that admits a lack of depth. -/
theorem exhausted_meets {contract : Contract workspace} (blames : contract.blames .exhausted) :
    (exhausted).Meet contract where
  load graph _ _ _ _ _ := ⟨.refl _ graph, blames⟩
  resolveOwner graph _ _ _ _ _ := ⟨.refl _ graph, blames⟩

/-- A family of contracts, one for each depth, is met at every depth. -/
theorem calls_meet (contract : (depth : Nat) → Contract workspace)
    (exhausts : (exhausted).Meet (contract 0))
    (opens : ∀ depth, (contract (depth + 1)).Opens (contract depth))
    (owns : ∀ depth calls, calls.Meet (contract depth) → ∀ graph site owner,
      (contract (depth + 1)).keeps graph → graph.IsOpen site →
      (contract (depth + 1)).mayResolve graph site owner →
      Advances (contract (depth + 1)) graph.resolving graph
        (Resolution.resolveOwner calls site owner) fun _ after =>
          owner ∉ (after.stateAt site).pending) :
    ∀ depth, (Compilation.calls workspace depth).Meet (contract depth)
  | 0 => exhausts
  | depth + 1 =>
    have deeper := calls_meet contract exhausts opens owns depth
    { load := fun _ _ _ _ keeps may => advances_load (opens depth) deeper keeps may
      resolveOwner := owns depth _ deeper }

theorem outcome_resolve (workspace : Workspace) (site : Site) (graph : Graph) :
    outcome (Compilation.resolve workspace site) graph =
      outcome (Resolution.resolve (Compilation.calls workspace (depthLimit workspace graph)) site)
        graph := by
  unfold Compilation.resolve allCalls
  rw [outcome_bind, outcome_bind]
  rfl

/-- What a text that is compiled as the content of a file comes to, in any graph: its declarations
are collected, they are resolved under a contract, and the file is closed. -/
def Compiles (contract : Contract workspace) (graph : Graph) (path : Path) (source : String)
    (compiling : Compiling CompiledModule) : Prop :=
  Ensures graph compiling
    (fun compiled after => ∃ resolved sheet,
      (graph.opening workspace path source).Completes workspace graph.resolving resolved ∧
      contract.keeps resolved ∧ (resolved.stateAt (.file path)).Complete ∧
      (workspace.collection path source).1 = .ok sheet ∧
      compiled = workspace.closed path (resolved.stateAt (.file path)) sheet ∧
      after = resolved.closing workspace path sheet)
    fun halt _ => contract.blames halt

theorem compiles_nested {contract : Contract workspace} {path : Path} {source : String}
    (meets : calls.Meet contract)
    (starts : ∀ sheet, (workspace.collection path source).1 = .ok sheet →
      contract.MayStart (graph.opening workspace path source) path source) :
    Compiles contract graph path source
      (compile workspace (Resolution.resolve calls) path source) := by
  unfold Compiles Ensures
  rw [outcome_compile]
  cases collects : (workspace.collection path source).1 with
  | error failure => exact contract.plain failure (Collect.kind_of_error _ collects)
  | ok sheet =>
    have resolved := advances_resolve_opening meets (starts sheet collects)
    unfold Advances Ensures at resolved
    dsimp only
    generalize outcome (Resolution.resolve _ (.file path)) (graph.opening workspace path source) =
      ending at resolved
    rcases ending with ⟨result, after⟩
    cases result with
    | error halt => exact resolved.2
    | ok _ =>
      rcases resolved with ⟨completes, keepsAfter, complete⟩
      exact ⟨after, sheet, completes, keepsAfter, complete, rfl, rfl, rfl⟩

/-- The outermost request compiles a text as a request does that is nested deep enough. -/
theorem ensures_compile {contract : Contract workspace} {path : Path} {source : String}
    (meets : (Compilation.calls workspace
      (depthLimit workspace (graph.opening workspace path source))).Meet contract)
    (starts : ∀ sheet, (workspace.collection path source).1 = .ok sheet →
      contract.MayStart (graph.opening workspace path source) path source) :
    Compiles contract graph path source (Graph.compile workspace path source) := by
  have compiles := compiles_nested meets starts
  unfold Compiles Ensures at compiles ⊢
  rw [outcome_compile] at compiles
  rw [Graph.compile, outcome_compile, outcome_resolve]
  exact compiles

end Compilation

end ScopedStyles
