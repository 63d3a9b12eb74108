import Mathlib.Data.List.Chain
import ScopedStyles.Proofs.Composition.Following

/-!
The cycles of compositions that are reported, in projects whose files import no names. The names
that are being resolved form a chain: each asks for the next one. It does so when it composes the
next one, but also when it composes anything of the next one's file, which is loaded for it and
resolves all its owners. A name that is asked for while it is being resolved closes the chain, so a
report is a cycle of compositions only where the files do not compose from each other in cycles.
-/

namespace ScopedStyles

open Compiling

namespace Project

variable (project : Project)

/-- No file imports names or values under an alias. -/
def ImportsNothing : Prop :=
  ∀ path, ∀ record ∈ project.records path, record.alias? = none

/-- An owner composes something of the file that a specifier means. -/
def ComposesBy (owner : Path × String) (specifier : String) : Prop :=
  ∃ composition ∈ (project.declared owner.1).compositionsOf owner.2,
    ∃ reference ∈ composition.references, reference.source = .file specifier

def ComposesFrom (importer path : Path) : Prop :=
  ∃ name specifier, project.ComposesBy (importer, name) specifier ∧
    project.workspace.resolver.resolve project.workspace.files specifier importer = .ok path

/-- Resolving an owner loads the file of another one. -/
def Loads (owner other : Path × String) : Prop :=
  (∃ specifier, project.ComposesBy owner specifier ∧
    project.workspace.resolver.resolve project.workspace.files specifier owner.1 = .ok other.1) ∧
  (project.declared other.1).compositions.contains other.2

/-- Resolving an owner asks for another name. -/
def Asks (owner other : Path × String) : Prop :=
  project.Composes owner other ∨ project.Loads owner other

/-- A chain leads from a name back to itself. -/
structure Closes (relation : Path × String → Path × String → Prop) (name : Path × String)
    (chain : List (Path × String)) : Prop where
  first : chain.head? = some name
  last : chain.getLast? = some name
  long : 2 ≤ chain.length
  linked : chain.IsChain relation

/-- A failure reports a chain that leads from a name of its file back to itself. -/
def Reports (relation : Path × String → Path × String → Prop) (failure : Failure) : Prop :=
  ∃ name chain, failure.cause = .cyclicComposition name (Resolution.chainNames chain) ∧
    Closes relation (failure.file, name) chain

variable {project} {graph : Graph} {path : Path}

/-! ## Chains -/

theorem dropWhile_of_mem {stack : List (Path × String)} {name : Path × String}
    (onStack : name ∈ stack) : ∃ others, stack.dropWhile (· ≠ name) = name :: others := by
  induction stack with
  | nil => cases onStack
  | cons first rest induction =>
    by_cases equal : first = name
    · exact ⟨rest, by simp [equal]⟩
    · rcases induction ((List.mem_cons.mp onStack).resolve_left (Ne.symm equal)) with
        ⟨others, found⟩
      exact ⟨others, by simpa [equal] using found⟩

/-- A name that is on a linked stack, and is asked for by the top, closes a chain. -/
theorem closes_of_reentered {relation : Path × String → Path × String → Prop}
    {stack : List (Path × String)} {name : Path × String} (linked : stack.IsChain relation)
    (onStack : name ∈ stack) (top : ∀ last ∈ stack.getLast?, relation last name) :
    Closes relation name (stack.dropWhile (· ≠ name) ++ [name]) := by
  have tail : stack.dropWhile (· ≠ name) <:+ stack := List.dropWhile_suffix _
  rcases dropWhile_of_mem onStack with ⟨others, found⟩
  rw [found] at tail ⊢
  refine ⟨rfl, List.getLast?_concat, by simp, (linked.suffix tail).append (.singleton _) ?_⟩
  intro last isLast other isOther
  cases isOther
  rcases tail with ⟨before, rfl⟩
  apply top last
  rw [List.getLast?_append_of_ne_nil _ (by simp)]
  exact isLast

/-- The steps of a chain that leads back to itself can be undone along it. -/
theorem Closes.returns {relation : Path × String → Path × String → Prop} {name : Path × String}
    {chain before after : List (Path × String)} {owner other : Path × String}
    (closes : Closes relation name chain) (equal : chain = before ++ owner :: other :: after) :
    Relation.ReflTransGen relation other owner := by
  subst equal
  rcases closes with ⟨first, last, _, linked⟩
  have toEnd : Relation.ReflTransGen relation other name := by
    apply List.relationReflTransGen_of_exists_isChain_cons after
    · exact (List.isChain_append_cons_cons.mp linked).2.2
    · apply Option.some.inj
      rw [← last, List.getLast?_append_of_ne_nil _ (by simp), List.getLast?_cons_cons,
        List.getLast?_eq_some_getLast]
  have fromStart : Relation.ReflTransGen relation name owner := by
    cases before with
    | nil =>
      cases first
      exact .refl
    | cons start rest =>
      cases first
      refine List.relationReflTransGen_of_exists_isChain_cons (rest ++ [owner]) ?_ (by simp)
      exact (List.isChain_append_cons_cons.mp linked).1
  exact toEnd.trans fromStart

theorem Closes.cycle {relation : Path × String → Path × String → Prop} {name : Path × String}
    {chain : List (Path × String)} (closes : Closes relation name chain) :
    Relation.TransGen relation name name := by
  rcases closes with ⟨first, last, long, linked⟩
  match chain, long with
  | start :: next :: rest, _ =>
    cases first
    rcases List.isChain_cons_cons.mp linked with ⟨step, further⟩
    refine .head' step (List.relationReflTransGen_of_exists_isChain_cons rest further ?_)
    apply Option.some.inj
    rw [← last, List.getLast?_cons_cons, List.getLast?_eq_some_getLast]

theorem Closes.mono {relation wider : Path × String → Path × String → Prop}
    {name : Path × String} {chain : List (Path × String)}
    (less : ∀ owner other, relation owner other → Relation.ReflTransGen relation other owner →
      wider owner other) (closes : Closes relation name chain) : Closes wider name chain where
  first := closes.first
  last := closes.last
  long := closes.long
  linked := List.isChain_iff_forall_rel_of_append_cons_cons.mpr fun _ _ _ _ equal =>
    less _ _ (List.isChain_iff_forall_rel_of_append_cons_cons.mp closes.linked equal)
      (closes.returns equal)

/-! ## Files without imports -/

variable (nothing : project.ImportsNothing)

include nothing

theorem imports_declared (path : Path) : (project.declared path).imports = [] := by
  have aliases : (project.declared path).imports.map ImportReference.localName =
      [] ++ (project.records path).filterMap Record.alias? :=
    ModuleState.map_localName_replay .empty (project.records path)
  have none : (project.records path).filterMap Record.alias? = [] :=
    List.filterMap_eq_nil_iff.mpr (nothing path)
  rw [none] at aliases
  exact List.map_eq_nil_iff.mp aliases

theorem imports_of_isOpen (follows : project.Follows graph) (isOpen : graph.IsOpen (.file path)) :
    (graph.stateAt (.file path)).imports = [] := by
  rw [(follows.develops_of_isOpen isOpen).sameDeclarations.imports]
  exact imports_declared nothing path

/-- Once literals have been settled only owners of compositions wait. -/
theorem contains_of_mem_settled (follows : project.Follows graph)
    (isOpen : graph.IsOpen (.file path)) {name : String}
    (waits : name ∈ ((graph.stateAt (.file path)).settleLiterals
      (graph.stateAt (.file path)).openAliases).pending) :
    (graph.stateAt (.file path)).compositions.contains name := by
  have develops := follows.develops_of_isOpen isOpen
  have coherent : (project.declared path).Coherent := Collect.coherent_declaredState
  have noAliases : (graph.stateAt (.file path)).openAliases = [] := by
    rw [ModuleState.openAliases, imports_of_isOpen nothing follows isOpen]
    rfl
  rw [noAliases] at waits
  rcases ModuleState.mem_pending_settleLiterals waits with ⟨earlier, absent⟩ | postponed
  · rcases develops.waitsForCause coherent.waitsForCause name earlier with owns | known | aliased
    · exact owns
    · exact absurd known absent
    · rw [develops.sameDeclarations.valueAliases] at aliased
      have imported := coherent.aliasesImported name aliased
      rw [imports_declared nothing path] at imported
      cases imported
  · rw [ModuleState.literals_settleLiterals_nil] at postponed
    cases postponed

theorem composes_of_sameFile {owner : String} {composition : Composition} {reference : Reference}
    (member : composition ∈ (project.declared path).compositionsOf owner)
    (referred : reference ∈ composition.references) (same : reference.source = .sameFile) :
    project.Composes (path, owner) (path, reference.name) := by
  refine ⟨composition, member, reference, referred, ?_⟩
  simp [target?, same, ModuleState.importOf?, imports_declared nothing path]

/-! ## Runs -/

/-- What a failure with a cycle reports while names are resolved. -/
def Blames (project : Project) (halt : Halt) : Prop :=
  ∀ failure, halt = .failed failure → failure.cause.kind = .cyclicComposition →
    Reports project.Asks failure

/-- The names that are being resolved form a chain, and a request for a name continues it. -/
def tracing : Contract project.workspace where
  keeps graph := project.Follows graph ∧ graph.has project.root ∧
    graph.resolving.IsChain project.Asks
  mayLoad graph specifier importer := ∀ top ∈ graph.resolving.getLast?,
    top.1 = importer ∧ project.ComposesBy top specifier
  mayResolve graph site owner := ∀ top ∈ graph.resolving.getLast?,
    project.Asks top (site.path, owner)
  blames := project.Blames
  recorded _ := fun ⟨follows, rooted, linked⟩ => ⟨follows.congr rfl, rooted, linked⟩
  filed keeps found := keeps.1.site_of_finished found
  settled := by
    rintro graph site blocked isOpen ⟨follows, rooted, linked⟩
    rcases follows.file_of_isOpen isOpen with ⟨path, rfl⟩
    have change : (graph.stateAt (.file path)).Change (fun _ => False) _ := .settled blocked
    exact ⟨follows.setState isOpen change, graph.has_setState rooted, linked⟩
  imported := by
    rintro graph site reference handle entry isOpen listed _ _ _ ⟨follows, _⟩
    rcases follows.file_of_isOpen isOpen with ⟨path, rfl⟩
    rw [imports_of_isOpen nothing follows isOpen] at listed
    cases listed
  loadable completes may top isTop := by
    rw [completes.resolving] at isTop
    exact may top isTop
  resolvable completes may top isTop := by
    rw [completes.resolving] at isTop
    exact may top isTop
  plain failure plain other equal cyclic := by
    cases equal
    exact absurd cyclic plain
  unsettled := by
    rintro graph path name ⟨follows, _⟩ isOpen free waits
    exact absurd (contains_of_mem_settled nothing follows isOpen waits) free
  unimported := by
    rintro graph site name reference ⟨follows, _⟩ isOpen found
    rcases follows.file_of_isOpen isOpen with ⟨path, rfl⟩
    rw [ModuleState.importOf?, imports_of_isOpen nothing follows isOpen] at found
    cases found

theorem mayRefer_tracing {site : Site} {owner : String} {composition : Composition}
    {reference : Reference} (isFile : site = .file path)
    (top : graph.resolving.getLast? = some (path, owner))
    (member : composition ∈ (project.declared path).compositionsOf owner)
    (referred : reference ∈ composition.references) :
    (tracing nothing).MayRefer graph site reference := by
  subst isFile
  unfold Contract.MayRefer
  split
  · rename_i same
    intro last isLast
    cases top.symm.trans isLast
    exact .inl (composes_of_sameFile nothing member referred same)
  · trivial
  · rename_i specifier inFile
    refine ⟨?_, ?_⟩
    · intro last isLast
      cases top.symm.trans isLast
      exact ⟨rfl, composition, member, reference, referred, inFile⟩
    · intro target means last isLast
      cases top.symm.trans isLast
      refine .inl ⟨composition, member, reference, referred, ?_⟩
      rw [target?, inFile]
      exact imported?_of_resolve means

/-- An owner that is asked for while it is being resolved closes a chain. -/
theorem blames_cyclic (linked : graph.resolving.IsChain project.Asks) {owner : String}
    (may : (tracing nothing).mayResolve graph (.file path) owner)
    {compositions : List Composition} {chain : List (Path × String)}
    (blocked : graph.enter path owner = .error chain) :
    project.Blames (Resolution.cyclic (.file path) owner compositions chain) := by
  rcases Graph.enter_eq_error blocked with ⟨onStack, rfl⟩
  intro failure isFailure _
  cases isFailure
  exact ⟨owner, _, rfl, closes_of_reentered linked onStack may⟩

theorem advances_resolveOwner_tracing {calls : Calls} (meets : calls.Meet (tracing nothing))
    {site : Site} {owner : String} (keeps : (tracing nothing).keeps graph)
    (isOpen : graph.IsOpen site) (may : (tracing nothing).mayResolve graph site owner) :
    Advances (tracing nothing) graph.resolving graph (Resolution.resolveOwner calls site owner)
      fun _ after => owner ∉ (after.stateAt site).pending := by
  rcases keeps with ⟨follows, rooted, linked⟩
  rcases follows.file_of_isOpen isOpen with ⟨path, rfl⟩
  -- The request was made by the top of the stack, so the owner continues the chain.
  have pushed : (graph.resolving ++ [(path, owner)]).IsChain project.Asks := by
    apply linked.append (.singleton _)
    intro last isLast other isOther
    cases isOther
    exact may last isLast
  refine Resolution.advances_resolveOwner meets ⟨follows, rooted, linked⟩ isOpen (fun _ => id)
    (fun _ _ => True) ?_ ?_ ?_ ?_
  · exact fun chain _ blocked => blames_cyclic nothing linked may blocked
  · intro entered _ enter
    rcases Graph.enter_eq_ok enter with ⟨_, resolving, slots⟩
    refine ⟨⟨follows.congr slots, ?_, resolving ▸ pushed⟩, trivial, ?_⟩
    · simpa only [Graph.has, slots] using rooted
    · intro composition member reference referred
      rw [follows.compositionsOf isOpen] at member
      refine mayRefer_tracing nothing rfl ?_ member referred
      rw [resolving]
      exact List.getLast?_concat
  · intro before done composition rest current parts isExternal equal _ isOpenBefore _ _
      completes keepsCurrent _
    rcases keepsCurrent with ⟨followsCurrent, rootedCurrent, linkedCurrent⟩
    have isOpenCurrent := completes.isOpen isOpenBefore
    have owns : (current.stateAt (.file path)).compositions.contains owner := by
      rw [(followsCurrent.develops_of_isOpen isOpenCurrent).sameDeclarations.compositions,
        ← (follows.develops_of_isOpen isOpen).sameDeclarations.compositions]
      have member : composition ∈ (graph.stateAt (.file path)).compositionsOf owner := by
        simp [equal]
      exact ModuleState.contains_of_mem_compositionsOf member
    have change : (current.stateAt (.file path)).Change (fun _ => False) _ :=
      .composed owns id (Resolution.mergeNames parts) isExternal
    exact ⟨⟨followsCurrent.setState isOpenCurrent change,
      Graph.has_setState _ rootedCurrent, linkedCurrent⟩, trivial⟩
  · intro after resolving isOpenAfter keepsAfter _
    have change : (after.stateAt (.file path)).Change (fun _ => False)
        ((after.stateAt (.file path)).release owner) := .released id
    refine ⟨Follows.setState (keepsAfter.1.congr rfl) isOpenAfter change,
      Graph.has_setState _ keepsAfter.2.1, ?_⟩
    change after.resolving.dropLast.IsChain _
    rw [resolving]
    exact List.dropLast_concat.symm ▸ linked

theorem mayStart_tracing {source : String} (text : project.text path = source)
    {sheet : Stylesheet} (collects : (project.workspace.collection path source).1 = .ok sheet)
    (follows : project.Follows graph) (linked : graph.resolving.IsChain project.Asks)
    (rooted : (graph.opening project.workspace path source).has project.root)
    (asked : ∀ top ∈ graph.resolving.getLast?, ∃ specifier, project.ComposesBy top specifier ∧
      project.workspace.resolver.resolve project.workspace.files specifier top.1 = .ok path) :
    (tracing nothing).MayStart (graph.opening project.workspace path source) path source := by
  have state := declared_of_text text collects
  have declares := ModuleState.sameDeclarations_settleLiterals (project.declared path)
    ((project.declared path).imports.map ImportReference.localName)
  have resolving := graph.resolving_opening project.workspace path source
  refine ⟨⟨follows.opening text collects, rooted, ?_⟩, ?_, ?_⟩
  · exact resolving ▸ linked
  · intro reference listed
    rw [state, declares.imports, imports_declared nothing path] at listed
    cases listed
  · intro owner owns top isTop
    rw [state, declares.compositions] at owns
    rw [resolving] at isTop
    exact .inr ⟨asked top isTop, owns⟩

theorem opens_tracing : (tracing nothing).Opens (tracing nothing) where
  excuses _ := id
  opened {graph specifier importer path source} keeps may means absent readable sheet collects := by
    rcases keeps with ⟨follows, rooted, linked⟩
    have different := ne_root_of_absent rooted absent
    refine mayStart_tracing nothing (text_of_read different readable) collects follows linked
      ((Graph.has_opening ..).mpr (.inr rooted)) ?_
    intro top isTop
    rcases may top isTop with ⟨rfl, composes⟩
    exact ⟨specifier, composes, means⟩
  closed {graph path source sheet} keeps isOpen _ _ _ _ :=
    ⟨keeps.1.closing isOpen sheet, (Graph.has_closing ..).mpr (.inr keeps.2.1), keeps.2.2⟩

theorem meets_tracing (depth : Nat) :
    (Compilation.calls project.workspace depth).Meet (tracing nothing) := by
  have unanswered : project.Blames .exhausted := by
    intro _ isFailure
    cases isFailure
  refine Compilation.calls_meet (fun _ => tracing nothing)
    (Compilation.exhausted_meets unanswered) (fun _ => opens_tracing nothing) ?_ depth
  intro _ calls meets graph site owner keeps isOpen may
  exact advances_resolveOwner_tracing nothing meets keeps isOpen may

/-- A run that fails with a cycle reports a chain of names that ask for each other. -/
theorem reports_of_run {failure : Failure}
    (fails : project.run.outcome = .error (.failed failure))
    (cyclic : failure.cause.kind = .cyclicComposition) : Reports project.Asks failure := by
  have text : project.text project.root = project.source := if_pos rfl
  rcases Processing.ends_or_blames (meets_tracing nothing) fun sheet collects =>
      mayStart_tracing nothing text collects follows_empty .nil
        ((Graph.has_opening ..).mpr (.inl rfl)) nofun with
    ⟨resolved, sheet, ends, _⟩ | ⟨halt, stops, blames⟩
  · rw [run, ends.outcome] at fails
    cases fails
  · rw [run, stops] at fails
    cases fails
    exact blames failure rfl cyclic

end Project

end ScopedStyles
