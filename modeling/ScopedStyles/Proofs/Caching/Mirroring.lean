import ScopedStyles.Proofs.Caching.Recompilation

/-!
A shared graph beside a graph of its own. While a file is compiled in a shared graph, other files
may be open around it, names of theirs may be being resolved, and files may have been finished
before. When files do not load each other in a circle, nothing of this can be seen from the file:
all that is open leads to it, and all that is finished is what the naive recursion would give.
-/

namespace ScopedStyles

open Compiling

/-! ## Files that load each other -/

/-- The specifier of a reference to another file. -/
def Reference.specifier? (reference : Reference) : Option String :=
  match reference.source with
  | .file specifier => some specifier
  | .sameFile | .passThrough => none

namespace ModuleState

/-- The specifiers that a file asks for, in its imports and in its compositions. -/
def askedFor (state : ModuleState) : List String :=
  state.imports.map ImportReference.specifier ++
    state.compositions.values.flatten.flatMap fun composition =>
      composition.references.filterMap Reference.specifier?

variable {state : ModuleState}

theorem SameDeclarations.askedFor {later : ModuleState} (same : state.SameDeclarations later) :
    later.askedFor = state.askedFor := by
  rw [ModuleState.askedFor, same.imports, same.compositions]
  rfl

theorem mem_askedFor_of_import {reference : ImportReference} (listed : reference ∈ state.imports) :
    reference.specifier ∈ state.askedFor :=
  List.mem_append_left _ (List.mem_map_of_mem listed)

theorem mem_askedFor_of_composition {owner specifier : String} {composition : Composition}
    {reference : Reference} (listed : composition ∈ state.compositionsOf owner)
    (refers : reference ∈ composition.references) (source : reference.source = .file specifier) :
    specifier ∈ state.askedFor := by
  rcases (OrderedMap.contains_iff_get? _ _).mp (contains_of_mem_compositionsOf listed) with
    ⟨compositions, found⟩
  have member : composition ∈ compositions := by
    rw [compositionsOf, found] at listed
    exact listed
  have among : compositions ∈ state.compositions.values :=
    List.mem_map_of_mem (OrderedMap.mem_entries_of_get? found)
  apply List.mem_append_right
  apply List.mem_flatMap.mpr
  refine ⟨composition, List.mem_flatten.mpr ⟨compositions, among, member⟩, ?_⟩
  apply List.mem_filterMap.mpr
  exact ⟨reference, refers, by rw [Reference.specifier?, source]⟩

end ModuleState

namespace Workspace

/-- A file that can be collected loads the files that the specifiers it asks for mean. -/
def Loads (workspace : Workspace) (path target : Path) : Prop :=
  ∃ source sheet specifier, workspace.files.read path = .ok source ∧
    (workspace.collection path source).1 = .ok sheet ∧
    specifier ∈ (workspace.collection path source).2.state.askedFor ∧
    workspace.resolver.resolve workspace.files specifier path = .ok target

/-- No file loads itself, directly or through others. -/
def Acyclic (workspace : Workspace) : Prop :=
  ∀ path, ¬ Relation.TransGen workspace.Loads path path

end Workspace

namespace Graph

/-- Every file that is being compiled, and every one whose names are being resolved, loads a file,
directly or through others. -/
structure LeadsTo (workspace : Workspace) (graph : Graph) (path : Path) : Prop where
  opened : ∀ site, graph.IsOpen site →
    ∃ other, site = .file other ∧ Relation.TransGen workspace.Loads other path
  resolving : ∀ entry ∈ graph.resolving, Relation.TransGen workspace.Loads entry.1 path

/-- Every finished file is what the naive recursion makes of its text. -/
def Cached (workspace : Workspace) (graph : Graph) : Prop :=
  ∀ site compiled, graph.slots.get? site = some (.finished compiled) →
    ∃ source, site = .file compiled.path ∧ workspace.files.read compiled.path = .ok source ∧
      workspace.Recompiles compiled.path source (.ok compiled)

/-- The same names are being resolved, and the same files are open, in the same states. -/
structure Preserves (before after : Graph) : Prop where
  resolving : after.resolving = before.resolving
  opened : ∀ site state, after.slots.get? site = some (.inFlight state) ↔
    before.slots.get? site = some (.inFlight state)

variable {workspace : Workspace} {graph after : Graph} {path : Path}

theorem leadsTo_empty (workspace : Workspace) (path : Path) : empty.LeadsTo workspace path where
  opened _ isOpen := by
    rcases isOpen with ⟨_, found⟩
    cases found
  resolving _ member := by cases member

theorem Preserves.same (resolving : after.resolving = graph.resolving)
    (slots : after.slots = graph.slots) : graph.Preserves after where
  resolving := resolving
  opened site state := by rw [slots]

namespace Cached

theorem empty (workspace : Workspace) : Graph.empty.Cached workspace := by
  intro _ _ found
  cases found

theorem congr (cached : graph.Cached workspace) (slots : after.slots = graph.slots) :
    after.Cached workspace := by
  intro site compiled found
  rw [slots] at found
  exact cached site compiled found

theorem setState (cached : graph.Cached workspace) (site : Site) (state : ModuleState) :
    (graph.setState site state).Cached workspace := by
  intro other compiled found
  rw [get?_setState] at found
  split at found
  · cases found
  · exact cached other compiled found

theorem opening (cached : graph.Cached workspace) (path : Path) (source : String) :
    (graph.opening workspace path source).Cached workspace := by
  intro other compiled found
  rw [get?_opening] at found
  split at found
  · cases found
  · exact cached other compiled found

theorem closing (cached : graph.Cached workspace) {source : String} {sheet : Stylesheet}
    (readable : workspace.files.read path = .ok source)
    (recompiles : workspace.Recompiles path source
      (.ok (workspace.closed path (graph.stateAt (.file path)) sheet))) :
    (graph.closing workspace path sheet).Cached workspace := by
  intro other compiled found
  rw [get?_closing] at found
  split at found
  · rename_i isFile
    cases found
    exact ⟨source, isFile, readable, recompiles⟩
  · exact cached other compiled found

end Cached

end Graph

/-! ## Mirrors -/

/-- A shared graph, in which a file is compiled inside an outer graph, and a graph of its own, in
which nothing but the file is compiled, agree on the file and on its names that are being resolved,
those that are `inner`. -/
structure Mirrors (workspace : Workspace) (outer : Graph) (path : Path)
    (inner : List (Path × String)) (graph own : Graph) : Prop where
  cached : graph.Cached workspace
  state : ∃ state, graph.slots.get? (.file path) = some (.inFlight state) ∧
    own.slots.get? (.file path) = some (.inFlight state)
  declares : ∃ source sheet, workspace.files.read path = .ok source ∧
    (workspace.collection path source).1 = .ok sheet ∧
    (workspace.collection path source).2.state.SameDeclarations (graph.stateAt (.file path))
  resolving : graph.resolving = outer.resolving ++ inner
  ownResolving : own.resolving = inner
  inside : ∀ entry ∈ inner, entry.1 = path
  around : ∀ site, site ≠ .file path → ∀ state,
    graph.slots.get? site = some (.inFlight state) ↔ outer.slots.get? site = some (.inFlight state)

namespace Mirrors

open ScopedStyles.Graph

variable {workspace : Workspace} {outer : Graph} {path : Path} {inner : List (Path × String)}
  {graph own : Graph}

theorem stateAt_eq (mirrors : Mirrors workspace outer path inner graph own) :
    own.stateAt (.file path) = graph.stateAt (.file path) := by
  rcases mirrors.state with ⟨state, found, foundOwn⟩
  rw [stateAt_of_get? found, stateAt_of_get? foundOwn]

theorem loads (mirrors : Mirrors workspace outer path inner graph own) {specifier : String}
    {target : Path} (asks : specifier ∈ (graph.stateAt (.file path)).askedFor)
    (means : workspace.resolver.resolve workspace.files specifier path = .ok target) :
    workspace.Loads path target := by
  rcases mirrors.declares with ⟨source, sheet, readable, collects, same⟩
  exact ⟨source, sheet, specifier, readable, collects, same.askedFor ▸ asks, means⟩

theorem leadsTo (mirrors : Mirrors workspace outer path inner graph own)
    (leads : outer.LeadsTo workspace path) {target : Path} (loads : workspace.Loads path target) :
    graph.LeadsTo workspace target where
  opened site isOpen := by
    by_cases isFile : site = .file path
    · exact ⟨path, isFile, .single loads⟩
    · rcases isOpen with ⟨state, found⟩
      have foundOuter := (mirrors.around site isFile state).mp found
      rcases leads.opened site ⟨state, foundOuter⟩ with ⟨other, isOther, reaches⟩
      exact ⟨other, isOther, reaches.tail loads⟩
  resolving entry member := by
    rw [mirrors.resolving] at member
    rcases List.mem_append.mp member with before | inside
    · exact (leads.resolving entry before).tail loads
    · rw [mirrors.inside entry inside]
      exact .single loads

theorem later {after : Graph} (mirrors : Mirrors workspace outer path inner graph own)
    (preserves : graph.Preserves after) (cached : after.Cached workspace) :
    Mirrors workspace outer path inner after own where
  cached := cached
  state := by
    rcases mirrors.state with ⟨state, found, foundOwn⟩
    exact ⟨state, (preserves.opened _ state).mpr found, foundOwn⟩
  declares := by
    rcases mirrors.state with ⟨state, found, _⟩
    rw [stateAt_of_get? ((preserves.opened _ state).mpr found), ← stateAt_of_get? found]
    exact mirrors.declares
  resolving := preserves.resolving.trans mirrors.resolving
  ownResolving := mirrors.ownResolving
  inside := mirrors.inside
  around site other state := (preserves.opened site state).trans (mirrors.around site other state)

theorem setState {state : ModuleState} (mirrors : Mirrors workspace outer path inner graph own)
    (same : (graph.stateAt (.file path)).SameDeclarations state) :
    Mirrors workspace outer path inner (graph.setState (.file path) state)
      (own.setState (.file path) state) where
  cached := mirrors.cached.setState _ _
  state := ⟨state, (get?_setState _ _ _ _).trans (if_pos rfl),
    (get?_setState _ _ _ _).trans (if_pos rfl)⟩
  declares := by
    rcases mirrors.declares with ⟨source, sheet, readable, collects, declares⟩
    refine ⟨source, sheet, readable, collects, ?_⟩
    rw [stateAt_setState]
    exact declares.trans same
  resolving := mirrors.resolving
  ownResolving := mirrors.ownResolving
  inside := mirrors.inside
  around site other := by
    rw [get?_setState, if_neg other]
    exact mirrors.around site other

/-- The names that are being resolved around the file are names of other files. -/
theorem not_mem_outer (leads : outer.LeadsTo workspace path) (acyclic : workspace.Acyclic)
    (name : String) : (path, name) ∉ outer.resolving :=
  fun member => acyclic path (leads.resolving _ member)

/-- A name of the file is being resolved in both graphs, along the same chain, or in none. -/
theorem enter_error {name : String} {chain : List (Path × String)}
    (mirrors : Mirrors workspace outer path inner graph own) (leads : outer.LeadsTo workspace path)
    (acyclic : workspace.Acyclic) (blocked : graph.enter path name = .error chain) :
    own.enter path name = .error chain := by
  rcases enter_eq_error blocked with ⟨member, equal⟩
  -- No name of the file is being resolved around it, so the chain begins with an inner name.
  have absent := not_mem_outer leads acyclic name
  rw [mirrors.resolving] at member equal
  have memberInner := (List.mem_append.mp member).resolve_left absent
  have skipped : (outer.resolving ++ inner).dropWhile (· ≠ (path, name)) =
      inner.dropWhile (· ≠ (path, name)) := by
    apply List.dropWhile_append_of_pos
    intro entry entryMember
    apply decide_eq_true
    rintro rfl
    exact absent entryMember
  rw [enter, mirrors.ownResolving, if_pos memberInner, equal, skipped]

theorem enter {name : String} {entered : Graph}
    (mirrors : Mirrors workspace outer path inner graph own)
    (enters : graph.enter path name = .ok entered) :
    ∃ ownEntered, own.enter path name = .ok ownEntered ∧
      Mirrors workspace outer path (inner ++ [(path, name)]) entered ownEntered := by
  rcases enter_eq_ok enters with ⟨absent, resolving, slots⟩
  have absentInner : (path, name) ∉ own.resolving := by
    intro member
    rw [mirrors.ownResolving] at member
    rw [mirrors.resolving] at absent
    exact absent (List.mem_append_right _ member)
  refine ⟨_, by rw [Graph.enter, if_neg absentInner], ?_⟩
  exact {
    cached := mirrors.cached.congr slots
    state := by
      rw [slots]
      exact mirrors.state
    declares := by
      rw [stateAt_congr slots]
      exact mirrors.declares
    resolving := by rw [resolving, mirrors.resolving, List.append_assoc]
    ownResolving := by
      dsimp only
      rw [mirrors.ownResolving]
    inside := by
      intro entry member
      rcases List.mem_append.mp member with before | last
      · exact mirrors.inside entry before
      · rw [List.mem_singleton.mp last]
    around := by
      rw [slots]
      exact mirrors.around }

theorem leave {entry : Path × String}
    (mirrors : Mirrors workspace outer path (inner ++ [entry]) graph own) :
    Mirrors workspace outer path inner graph.leave own.leave where
  cached := mirrors.cached
  state := mirrors.state
  declares := mirrors.declares
  resolving := by
    change graph.resolving.dropLast = _
    rw [mirrors.resolving, ← List.append_assoc, List.dropLast_concat]
  ownResolving := by
    change own.resolving.dropLast = _
    rw [mirrors.ownResolving, List.dropLast_concat]
  inside other member := mirrors.inside other (List.mem_append_left _ member)
  around := mirrors.around

theorem opening {source : String} {sheet : Stylesheet} (cached : outer.Cached workspace)
    (readable : workspace.files.read path = .ok source)
    (collects : (workspace.collection path source).1 = .ok sheet) :
    Mirrors workspace outer path [] (outer.opening workspace path source)
      (Graph.empty.opening workspace path source) where
  cached := cached.opening path source
  state := ⟨_, (get?_opening _ _ _ _ _).trans (if_pos rfl),
    (get?_opening _ _ _ _ _).trans (if_pos rfl)⟩
  declares := by
    refine ⟨source, sheet, readable, collects, ?_⟩
    rw [stateAt_opening]
    exact .refl _
  resolving := by rw [resolving_opening, List.append_nil]
  ownResolving := resolving_opening _ _ _ _
  inside _ member := by cases member
  around site other state := by rw [get?_opening, if_neg other]

theorem closing {sheet : Stylesheet} (mirrors : Mirrors workspace outer path [] graph own)
    (absent : outer.slots.get? (.file path) = none) :
    outer.Preserves (graph.closing workspace path sheet) where
  resolving := mirrors.resolving.trans (List.append_nil _)
  opened site state := by
    rw [get?_closing]
    split
    · rename_i isFile
      rw [isFile, absent]
      constructor
      · intro found
        cases found
      · intro found
        cases found
    · rename_i other
      exact mirrors.around site other state

end Mirrors

end ScopedStyles
