import ScopedStyles.Proofs.Graph.Results

/-!
The bound on nested requests is never reached. Every request that goes deeper takes something that
is there to be taken: the compilation of a file takes a file that is not in the graph, and the
resolution of a name takes a name that can wait and is not being resolved. Nothing is ever put back
while requests nest, and the bound is larger than the number of things that can be taken.
-/

namespace ScopedStyles

open Compiling

namespace ModuleState

/-- A name waits, or may be made to wait by a literal. -/
def CanWait (state : ModuleState) (name : String) : Prop :=
  name ∈ state.pending ∨ state.literals.contains name

variable {state later : ModuleState} {kept : String → Prop} {name : String}

theorem Change.canWait (change : Change kept state later) (waits : later.CanWait name) :
    state.CanWait name := by
  cases change with
  | settled blocked =>
    rcases waits with pending | literal
    · rcases mem_pending_settleLiterals pending with ⟨earlier, _⟩ | postponed
      · exact .inl earlier
      · exact .inr (contains_literals_of_settleLiterals postponed)
    · exact .inr (contains_literals_of_settleLiterals literal)
  | imported listed entry =>
    rcases waits with pending | literal
    · exact .inl (mem_pending_recordImported.mp pending).1
    · rw [literals_recordImported] at literal
      exact .inr literal
  | composed => exact waits
  | released => exact waits.imp_left fun pending => (mem_release.mp pending).1

theorem Develops.canWait (develops : Develops kept state later) (waits : later.CanWait name) :
    state.CanWait name := by
  induction develops with
  | refl => exact waits
  | tail _ change earlier => exact earlier (change.canWait waits)

/-- All names that can wait, some of them twice. -/
def waitingNames (state : ModuleState) : List String :=
  state.pending ++ state.literals.keys

theorem CanWait.mem (waits : state.CanWait name) : name ∈ state.waitingNames := by
  apply List.mem_append.mpr
  exact waits.imp_right (OrderedMap.contains_iff_mem_keys _ name).mp

theorem length_waitingNames (state : ModuleState) :
    state.waitingNames.length = Compilation.waiting state := by
  simp [waitingNames, Compilation.waiting, OrderedMap.keys, OrderedMap.size]

end ModuleState

namespace Graph

variable {workspace : Workspace} {graph before after : Graph} {held : List (Path × String)}

/-- What a request that goes deeper can take in a graph: a file that has not been asked for, or a
name that can wait and is not being resolved. The names of a file can be taken once it is there. -/
inductive Takeable (workspace : Workspace) (graph : Graph) : Site → Option String → Prop
  | file {path : Path} {source : String} (absent : graph.slots.get? (.file path) = none)
      (readable : workspace.files.read path = .ok source) :
      Takeable workspace graph (.file path) none
  | inside {path : Path} {source name : String} (absent : graph.slots.get? (.file path) = none)
      (readable : workspace.files.read path = .ok source)
      (waits : (workspace.collection path source).2.state.CanWait name) :
      Takeable workspace graph (.file path) (some name)
  | name {site : Site} {state : ModuleState} {name : String}
      (isOpen : graph.slots.get? site = some (.inFlight state)) (waits : state.CanWait name)
      (free : (site.path, name) ∉ graph.resolving) : Takeable workspace graph site (some name)

/-- Fewer things than a depth can be taken. -/
def Bounded (workspace : Workspace) (graph : Graph) (depth : Nat) : Prop :=
  ∃ things : List (Site × Option String), things.length < depth ∧
    ∀ site name, Takeable workspace graph site name → (site, name) ∈ things

theorem Completes.absent (completes : before.Completes workspace held after) {site : Site}
    (absent : after.slots.get? site = none) : before.slots.get? site = none := by
  cases found : before.slots.get? site with
  | none => rfl
  | some slot =>
    cases slot with
    | inFlight state =>
      rcases completes.opened site state found with ⟨later, foundLater, _⟩
      rw [absent] at foundLater
      cases foundLater
    | finished compiled =>
      rw [completes.finished site compiled found] at absent
      cases absent

theorem Completes.takeable (completes : before.Completes workspace held after) {site : Site}
    {name : Option String} (takeable : Takeable workspace after site name) :
    Takeable workspace before site name := by
  cases takeable with
  | file absent readable => exact .file (completes.absent absent) readable
  | inside absent readable waits => exact .inside (completes.absent absent) readable waits
  | name isOpen waits free =>
    rw [completes.resolving] at free
    cases found : before.slots.get? site with
    | none =>
      rcases completes.added site _ found isOpen with ⟨_, _, _, isFinished, _⟩
      cases isFinished
    | some slot =>
      cases slot with
      | inFlight state =>
        rcases completes.opened site state found with ⟨later, foundLater, develops⟩
        rw [isOpen] at foundLater
        cases foundLater
        exact .name found (develops.canWait waits) free
      | finished compiled =>
        rw [completes.finished site compiled found] at isOpen
        cases isOpen

theorem Bounded.later {depth : Nat} (bounded : before.Bounded workspace depth)
    (completes : before.Completes workspace held after) : after.Bounded workspace depth := by
  rcases bounded with ⟨things, short, all⟩
  exact ⟨things, short, fun site name takeable => all site name (completes.takeable takeable)⟩

theorem Bounded.take {depth : Nat} (bounded : before.Bounded workspace (depth + 1)) (site : Site)
    (name : Option String) (takeable : Takeable workspace before site name)
    (less : ∀ other name', Takeable workspace after other name' →
      Takeable workspace before other name' ∧ (other, name') ≠ (site, name)) :
    after.Bounded workspace depth := by
  rcases bounded with ⟨things, short, all⟩
  refine ⟨things.filter (· ≠ (site, name)), ?_, ?_⟩
  · have fewer : (things.filter (· ≠ (site, name))).length < things.length :=
      List.length_filter_lt_length_iff_exists.mpr ⟨_, all site name takeable, by simp⟩
    omega
  · intro other name' left
    rcases less other name' left with ⟨takeable, different⟩
    apply List.mem_filter.mpr
    exact ⟨all other name' takeable, decide_eq_true different⟩

theorem Bounded.opening {depth : Nat} {path : Path} {source : String}
    (bounded : graph.Bounded workspace (depth + 1))
    (absent : graph.slots.get? (.file path) = none)
    (readable : workspace.files.read path = .ok source) :
    (graph.opening workspace path source).Bounded workspace depth := by
  apply bounded.take (.file path) none (.file absent readable)
  intro other name takeable
  cases takeable with
  | @file otherPath _ absentOther readable =>
    rw [get?_opening] at absentOther
    split at absentOther
    · cases absentOther
    · rename_i different
      exact ⟨.file absentOther readable, by simpa using different⟩
  | inside absentOther readable waits =>
    rw [get?_opening] at absentOther
    split at absentOther
    · cases absentOther
    · exact ⟨.inside absentOther readable waits, by simp⟩
  | name isOpen waits free =>
    rw [resolving_opening] at free
    rw [get?_opening] at isOpen
    split at isOpen
    · rename_i isFile
      cases isOpen
      subst isFile
      -- The names of the file counted before it was opened.
      exact ⟨.inside absent readable waits, by simp⟩
    · exact ⟨.name isOpen waits free, by simp⟩

theorem Bounded.enter {depth : Nat} {site : Site} {name : String} {entered : Graph}
    (bounded : graph.Bounded workspace (depth + 1)) (isOpen : graph.IsOpen site)
    (waits : name ∈ (graph.stateAt site).pending)
    (enters : graph.enter site.path name = .ok entered) : entered.Bounded workspace depth := by
  rcases enter_eq_ok enters with ⟨free, resolving, slots⟩
  rcases isOpen with ⟨state, found⟩
  rw [stateAt_of_get? found] at waits
  apply bounded.take site (some name) (.name found (.inl waits) free)
  intro other name' takeable
  cases takeable with
  | file absent readable => exact ⟨.file (slots ▸ absent) readable, by simp⟩
  | inside absent readable waits' =>
    rw [slots] at absent
    refine ⟨.inside absent readable waits', ?_⟩
    rintro ⟨⟩
    rw [found] at absent
    cases absent
  | name isOpen' waits' free' =>
    rw [resolving, List.mem_append, not_or] at free'
    refine ⟨.name (slots ▸ isOpen') waits' free'.1, ?_⟩
    rintro ⟨⟩
    exact free'.2 (List.mem_singleton_self _)

end Graph

/-! ## Requests -/

/-- Requests that nest to a depth at which less can be taken never run out of depth. -/
def Contract.bounding (workspace : Workspace) (depth : Nat) : Contract workspace :=
  { filing workspace with
    mayLoad := fun graph _ _ => graph.Bounded workspace depth
    mayResolve := fun graph _ _ => graph.Bounded workspace depth
    blames := fun halt => halt ≠ .exhausted
    loadable := fun completes bounded => bounded.later completes
    resolvable := fun completes bounded => bounded.later completes
    plain := fun _ _ same => by cases same
    unsettled := fun _ _ _ _ _ same => by cases same
    unimported := fun _ _ _ _ same => by cases same }

namespace Contract

variable {workspace : Workspace} {graph : Graph} {depth : Nat}

theorem mayStart_bounding {path : Path} {source : String}
    (filed : (graph.opening workspace path source).Filed)
    (bounded : (graph.opening workspace path source).Bounded workspace depth) :
    (bounding workspace depth).MayStart (graph.opening workspace path source) path source where
  keeps := filed
  mayImport _ _ := ⟨bounded, fun _ _ => bounded⟩
  mayOwn _ _ := bounded

theorem meets_bounding (workspace : Workspace) (depth : Nat) :
    (Compilation.calls workspace depth).Meet (bounding workspace depth) := by
  refine Compilation.calls_meet (bounding workspace) ⟨?_, ?_⟩ (fun depth => ⟨?_, ?_, ?_⟩) ?_ depth
  · rintro _ _ _ _ _ ⟨things, short, _⟩
    exact absurd short (Nat.not_lt_zero _)
  · rintro _ _ _ _ _ ⟨things, short, _⟩
    exact absurd short (Nat.not_lt_zero _)
  · exact fun _ blames => blames
  · exact fun keeps may _ absent readable _ _ =>
      mayStart_bounding (keeps.opening _ _ _) (may.opening absent readable)
  · exact fun keeps _ _ _ _ _ => keeps.closing _ _ _
  · intro depth calls meets graph site owner keeps isOpen may
    refine Resolution.advances_resolveOwner meets keeps isOpen (fun _ blames => blames)
      (fun _ _ => True) (fun _ _ _ => nofun) ?_ ?_ ?_
    · intro entered waits enter
      refine ⟨keeps.congr (Graph.enter_eq_ok enter).2.2, trivial, ?_⟩
      have bounded := may.enter isOpen waits enter
      exact fun _ _ _ _ => mayRefer_of_all (fun _ _ => bounded) fun _ _ => bounded
    · exact fun _ _ _ _ _ _ _ _ _ _ _ _ _ keeps _ => ⟨keeps.setState _ _, trivial⟩
    · intro after _ _ keeps _
      have left : after.leave.Filed := keeps
      exact left.setState _ _

end Contract

namespace Graph

variable {workspace : Workspace} {graph : Graph}

/-- What can be taken of a file in some state. -/
def namesOf (site : Site) (state : ModuleState) : List (Site × Option String) :=
  state.waitingNames.map fun name => (site, some name)

theorem mem_namesOf {site : Site} {state : ModuleState} {name : String}
    (waits : state.CanWait name) : (site, some name) ∈ namesOf site state :=
  List.mem_map_of_mem waits.mem

/-- What can be taken of a file that nobody has asked for, and once it is there. -/
def thingsOf (workspace : Workspace) (file : Path × String) : List (Site × Option String) :=
  (.file file.1, none) ::
    namesOf (.file file.1) (workspace.collection file.1 file.2).2.state

theorem length_flatMap_eq_total (items : List ι) (things : ι → List (Site × Option String)) :
    (items.flatMap things).length =
      Compilation.total (items.map fun item => (things item).length) := by
  induction items with
  | nil => rfl
  | cons item rest induction =>
    rw [List.flatMap_cons, List.length_append, induction]
    rfl

theorem entry_of_read {path : Path} {source : String}
    (readable : workspace.files.read path = .ok source) :
    (path, source) ∈ workspace.files.contents.entries := by
  unfold Files.read at readable
  split at readable
  · rename_i found
    cases readable
    exact OrderedMap.mem_entries_of_get? found
  · cases readable

/-- The bound on nested requests is larger than the number of things that can be taken. -/
theorem bounded_depthLimit (workspace : Workspace) (graph : Graph) :
    graph.Bounded workspace (Compilation.depthLimit workspace graph) := by
  refine ⟨workspace.files.contents.entries.flatMap (thingsOf workspace) ++
    graph.slots.entries.flatMap (fun entry => namesOf entry.1 entry.2.state), ?_, ?_⟩
  · have files : workspace.files.contents.entries.map
          (fun file => (thingsOf workspace file).length) =
        workspace.files.contents.entries.map fun file =>
          1 + Compilation.waitingIn (workspace.context file.1 file.2) := by
      apply List.map_congr_left
      intro file _
      rw [thingsOf, List.length_cons, namesOf, List.length_map,
        ModuleState.length_waitingNames, Nat.add_comm]
      rfl
    have slots : graph.slots.entries.map (fun entry => (namesOf entry.1 entry.2.state).length) =
        graph.slots.values.map fun slot => Compilation.waiting slot.state := by
      rw [OrderedMap.values, List.map_map]
      apply List.map_congr_left
      intro entry _
      rw [namesOf, List.length_map, ModuleState.length_waitingNames]
      rfl
    rw [List.length_append, length_flatMap_eq_total, length_flatMap_eq_total, files, slots]
    exact Nat.lt_succ_self _
  · intro site name takeable
    apply List.mem_append.mpr
    cases takeable with
    | file absent readable =>
      exact .inl (List.mem_flatMap.mpr ⟨_, entry_of_read readable, List.mem_cons_self ..⟩)
    | inside absent readable waits =>
      exact .inl (List.mem_flatMap.mpr
        ⟨_, entry_of_read readable, List.mem_cons_of_mem _ (mem_namesOf waits)⟩)
    | name isOpen waits free =>
      exact .inr (List.mem_flatMap.mpr
        ⟨_, OrderedMap.mem_entries_of_get? isOpen, mem_namesOf waits⟩)

/-! ## No request runs out of depth -/

theorem outcome_load (workspace : Workspace) (graph : Graph) (specifier : String)
    (importer : Path) (location : Location) :
    outcome (load workspace specifier importer location) graph =
      outcome ((Compilation.calls workspace
        (Compilation.depthLimit workspace graph)).load specifier importer location) graph := by
  unfold load Compilation.allCalls
  rw [outcome_bind, outcome_bind]
  rfl

theorem load_ne_exhausted (filed : graph.Filed) (specifier : String) (importer : Path)
    (location : Location) :
    (outcome (load workspace specifier importer location) graph).1 ≠ .error .exhausted := by
  intro exhausted
  have meets := Contract.meets_bounding workspace (Compilation.depthLimit workspace graph)
  have loads := meets.load graph specifier importer location filed
    (bounded_depthLimit workspace graph)
  rw [outcome_load] at exhausted
  exact (Ensures.of_error loads (Prod.ext exhausted rfl)).2 rfl

theorem compile_ne_exhausted (filed : graph.Filed) (path : Path) (source : String) :
    (outcome (compile workspace path source) graph).1 ≠ .error .exhausted := by
  intro exhausted
  have compiles := Compilation.ensures_compile (Contract.meets_bounding workspace _)
    fun _ _ => Contract.mayStart_bounding (filed.opening workspace path source)
      (bounded_depthLimit workspace _)
  exact Ensures.of_error compiles (Prod.ext exhausted rfl) rfl

end Graph

end ScopedStyles
