import ScopedStyles.Proofs.Graph.Steps
import ScopedStyles.Proofs.Module.Symbols

/-!
Compiling a file is a sequence of steps. Every function of the compilation is walked through once,
given that the requests it makes are sequences of steps.
-/

namespace ScopedStyles

open Compiling ScopedStyles.Graph

namespace Compiling

variable {workspace : Workspace} {graph : Graph}

/-- On a graph an action takes steps: it returns with `good`, or breaks off. -/
def Walks (workspace : Workspace) (graph : Graph) (action : Compiling α)
    (good : α → Graph → Prop) : Prop :=
  Ensures graph action (fun value after => graph.Returns workspace after ∧ good value after)
    fun _ after => graph.Breaks workspace after

namespace Walks

theorem weaken {action : Compiling α} {better good : α → Graph → Prop}
    (walks : Walks workspace graph action better)
    (weaken : ∀ value after, graph.Returns workspace after → better value after →
      good value after) : Walks workspace graph action good :=
  Ensures.mono walks
    (fun value after ⟨returns, holds⟩ => ⟨returns, weaken value after returns holds⟩)
    fun _ _ => id

theorem pure {value : α} {good : α → Graph → Prop} (holds : good value graph) :
    Walks workspace graph (Pure.pure value) good :=
  ⟨.refl workspace graph, holds⟩

theorem fail {site : Site} {location : Location} {cause : Cause} {good : α → Graph → Prop} :
    Walks workspace graph (Compiling.fail site location cause) good :=
  Ensures.fail (.refl workspace graph)

theorem note {event : GraphEvent} {good : Unit → Graph → Prop}
    (happens : graph.Happens workspace event) (holds : good () (graph.record event)) :
    Walks workspace graph (Compiling.note event) good :=
  Ensures.note ⟨.note happens, holds⟩

theorem update {path : Path} {change : ModuleState → ModuleState} {good : Unit → Graph → Prop}
    (isOpen : graph.IsOpen (.file path))
    (alters : graph.Alters workspace False path (change (graph.stateAt (.file path))))
    (holds : good () (graph.setState (.file path) (change (graph.stateAt (.file path))))) :
    Walks workspace graph (Compiling.update (.file path) change) good :=
  Ensures.update ⟨.setState isOpen alters, holds⟩

theorem following {middle : Graph} {action : Compiling α} {good : α → Graph → Prop}
    (returns : graph.Returns workspace middle) (rest : Walks workspace middle action good) :
    Ensures middle action (fun value after => graph.Returns workspace after ∧ good value after)
      fun _ after => graph.Breaks workspace after :=
  Ensures.mono rest (fun _ _ ⟨further, holds⟩ => ⟨returns.trans further, holds⟩)
    fun _ _ further => returns.breaks.trans further

theorem bind {action : Compiling α} {next : α → Compiling β} {good : β → Graph → Prop}
    (first : Walks workspace graph action fun value after =>
      Walks workspace after (next value) good) : Walks workspace graph (action >>= next) good :=
  Ensures.bind (Ensures.mono first (fun _ _ ⟨returns, rest⟩ => rest.following returns)
    fun _ _ => id)

theorem get {next : Graph → Compiling β} {good : β → Graph → Prop}
    (rest : Walks workspace graph (next graph) good) :
    Walks workspace graph (MonadState.get >>= next) good :=
  Ensures.get rest

theorem stateAt {site : Site} {next : ModuleState → Compiling β} {good : β → Graph → Prop}
    (rest : Walks workspace graph (next (graph.stateAt site)) good) :
    Walks workspace graph (Compiling.stateAt site >>= next) good :=
  Ensures.stateAt rest

theorem forM {items : List ι} {action : ι → Compiling Unit} (invariant : List ι → Graph → Prop)
    (start : invariant [] graph)
    (step : ∀ done item rest, items = done ++ item :: rest → ∀ current,
      graph.Returns workspace current → invariant done current →
      Walks workspace current (action item) fun _ after => invariant (done ++ [item]) after) :
    Walks workspace graph (items.forM action) fun _ after => invariant items after := by
  apply Ensures.forM (fun done current => graph.Returns workspace current ∧ invariant done current)
    ⟨.refl workspace graph, start⟩
  intro done item rest equal current ⟨returns, holds⟩
  exact (step done item rest equal current returns holds).following returns

theorem mapM {items : List ι} {action : ι → Compiling α}
    (step : ∀ item ∈ items, ∀ current, graph.Returns workspace current →
      Walks workspace current (action item) fun _ _ => True) :
    Walks workspace graph (items.mapM action) fun _ _ => True := by
  apply Ensures.mono (Ensures.mapM (fun _ _ current => graph.Returns workspace current)
    (.refl workspace graph) ?_)
  · exact fun _ _ returns => ⟨returns, trivial⟩
  · exact fun _ _ => id
  · intro done item rest values equal current returns
    exact Ensures.mono ((step item (by simp [equal]) current returns).following returns)
      (fun _ _ => And.left) fun _ _ => id

end Walks

end Compiling

namespace Graph

variable {workspace : Workspace} {graph : Graph} {path : Path}

/-- A name without compositions has been released that stands for text. Only a reference to the
name asks for this, and it fails. -/
structure Stuck (workspace : Workspace) (graph after : Graph) (path : Path) (name : String) : Prop
    extends Breaks workspace graph after where
  isOpen : after.IsOpen (.file path)
  isText : ∃ entry, (after.stateAt (.file path)).table.get? name = some entry ∧ entry.isLiteral
  unowned : ¬ (after.stateAt (.file path)).compositions.contains name

theorem Works.entered {entered : Graph} {name : String} (works : graph.Works workspace path)
    (waits : name ∈ (graph.stateAt (.file path)).pending)
    (enters : graph.enter path name = .ok entered) : entered.Works workspace path := by
  have steps : graph.Steps workspace True entered :=
    .single (.entered works.isOpen waits enters)
  have slots := slots_enter enters
  refine ⟨?_, fun other isOpen => ?_, steps.filed works.filed⟩
  · simpa only [IsOpen, slots] using works.isOpen
  · rw [IsOpen, slots] at isOpen
    exact (works.leads other isOpen).lift id fun _ _ => steps.needs

theorem offers_of_handle? {handle : Handle} (filed : graph.Filed)
    (known : graph.handle? path = some handle) : graph.Offers handle ∧ handle.path = path := by
  unfold handle? at known
  cases found : graph.slots.get? (.file path) with
  | none => simp [found] at known
  | some slot =>
    cases slot with
    | inFlight state =>
      simp [found] at known
      subst known
      exact ⟨⟨state, found⟩, rfl⟩
    | finished compiled =>
      simp [found] at known
      subst known
      cases filed _ _ found
      exact ⟨found, rfl⟩

theorem has_of_handle? {handle : Handle} (known : graph.handle? path = some handle) :
    graph.has path := by
  unfold handle? at known
  cases found : graph.slots.get? (.file path) with
  | none => simp [found] at known
  | some slot => exact (OrderedMap.contains_iff_get? _ _).mpr ⟨slot, found⟩

theorem absent_of_handle? (unknown : graph.handle? path = none) :
    graph.slots.get? (.file path) = none := by
  simpa [handle?] using unknown

end Graph

/-! ## Requests -/

/-- The requests that a file at work makes are sequences of steps. -/
structure Calls.Walk (workspace : Workspace) (calls : Calls) : Prop where
  load : ∀ graph specifier importer location, graph.Works workspace importer →
    specifier ∈ (graph.stateAt (.file importer)).askedFor →
    Walks workspace graph (calls.load specifier importer location) fun handle after =>
      after.Offers handle ∧
        workspace.resolver.resolve workspace.files specifier importer = .ok handle.path
  resolveOwner : ∀ graph path owner, graph.Works workspace path →
    Ensures graph (calls.resolveOwner (.file path) owner)
      (fun _ after =>
        graph.Returns workspace after ∧ owner ∉ (after.stateAt (.file path)).pending ∨
          graph.Stuck workspace after path owner)
      fun _ after => graph.Breaks workspace after

namespace Resolution

variable {workspace : Workspace} {calls : Calls} {graph : Graph} {path : Path}

theorem walks_owner (walk : calls.Walk workspace) (works : graph.Works workspace path)
    {owner : String} (owns : (graph.stateAt (.file path)).compositions.contains owner) :
    Walks workspace graph (calls.resolveOwner (.file path) owner) fun _ after =>
      owner ∉ (after.stateAt (.file path)).pending := by
  apply Ensures.mono (walk.resolveOwner graph path owner works)
  · rintro _ after (⟨returns, released⟩ | stuck)
    · exact ⟨returns, released⟩
    · obtain ⟨state, found⟩ := works.isOpen
      have same := (stuck.steps.develops found).sameDeclarations
      exact absurd (same.compositions ▸ owns) stuck.unowned
  · exact fun _ _ => id

theorem walks_ask {handle : Handle} (offers : graph.Offers handle) (name : String) :
    Walks workspace graph (ask handle name) fun answer after =>
      answer = graph.lookup handle name ∧ after.slots = graph.slots := by
  refine .get ?_
  cases handle with
  | inFlight path => exact .bind (.note (.answered offers name) (.pure ⟨rfl, rfl⟩))
  | ready compiled => exact .pure ⟨rfl, rfl⟩

theorem walks_settleInFlight (walk : calls.Walk workspace) (works : graph.Works workspace path)
    (name : String) :
    Walks workspace graph (settleInFlight calls path name) fun _ _ => True := by
  refine .stateAt ?_
  split
  · rename_i owns
    exact (walks_owner walk works owns).weaken fun _ _ _ _ => trivial
  · exact .update works.isOpen (.settled _) trivial

theorem walks_lookUp (walk : calls.Walk workspace) (works : graph.Works workspace path)
    {handle : Handle} (offers : graph.Offers handle)
    (needs : graph.Needs workspace path handle.path) (name requester specifier : String)
    (location : Location) :
    Walks workspace graph
      (lookUp calls (.file path) handle name requester specifier location) fun entry after =>
        after.Offers handle ∧ after.lookup handle name = .found entry := by
  refine .bind ((walks_ask offers name).weaken ?_)
  rintro answer asked returns ⟨answers, slots⟩
  dsimp only
  split
  · rename_i unsettled
    -- Only a file that is not finished puts an answer off. It is at work when the name is settled
    -- on demand, since the file that asks is.
    cases handle with
    | ready compiled =>
      rw [unsettled] at answers
      exact absurd answers.symm (lookup_ne_unsettled nofun)
    | inFlight target =>
      have isOpen : asked.IsOpen (.file target) := returns.offers offers
      have works' := (returns.works works).of_needs (returns.steps.needs needs) isOpen
      refine .bind ((walks_settleInFlight walk works' name).weaken ?_)
      intro _ settled further _
      refine .bind ((walks_ask (further.offers (returns.offers offers)) name).weaken ?_)
      rintro answer last again ⟨rfl, slots⟩
      rw [← lookup_congr slots]
      split
      · rename_i entry found
        exact .pure ⟨again.offers (further.offers (returns.offers offers)), found⟩
      · exact .fail
      · exact .fail
  · rw [← lookup_congr slots] at answers
    refine .bind (.pure ?_)
    split
    · exact .pure ⟨returns.offers offers, answers.symm⟩
    · exact .fail
    · exact .fail

theorem walks_localNames (walk : calls.Walk workspace) (works : graph.Works workspace path)
    (name : String) (location : Location) :
    Walks workspace graph (localNames calls (.file path) name location) fun _ _ => True := by
  refine Ensures.bind (Ensures.mono (walk.resolveOwner graph path name works) ?_ fun _ _ => id)
  rintro _ after (⟨returns, _⟩ | stuck)
  · refine Walks.following returns (.stateAt ?_)
    split
    · split
      · exact .fail
      · exact .pure trivial
    · exact .pure trivial
    · split
      · exact .fail
      · split <;> exact .fail
  · -- A name that is stuck stands for text, and texts cannot be composed.
    obtain ⟨entry, found, isText⟩ := stuck.isText
    refine Ensures.stateAt ?_
    simp only [found, isText, ↓reduceIte]
    exact Ensures.fail stuck.toBreaks

theorem walks_referenceNames (walk : calls.Walk workspace) (works : graph.Works workspace path)
    (owner : String) (location : Location) {reference : Reference}
    (asks : ∀ specifier, reference.source = .file specifier →
      specifier ∈ (graph.stateAt (.file path)).askedFor) :
    Walks workspace graph (referenceNames calls (.file path) owner location reference)
      fun _ _ => True := by
  obtain ⟨name, source⟩ := reference
  cases source with
  | sameFile => exact walks_localNames walk works name location
  | passThrough => exact .pure trivial
  | file specifier =>
    have asks := asks specifier rfl
    refine .bind ((walk.load graph specifier path location works asks).weaken ?_)
    rintro handle loaded returns ⟨offers, means⟩
    have needs : graph.Needs workspace path handle.path := ⟨specifier, asks, means⟩
    refine .bind ((walks_lookUp walk (returns.works works) offers (returns.steps.needs needs)
      name owner specifier location).weaken ?_)
    intro entry _ _ _
    split
    · exact .fail
    · exact .pure trivial

theorem walks_compose (walk : calls.Walk workspace) (works : graph.Works workspace path)
    {owner : String} {outer : List (Path × String)}
    (innermost : graph.resolving = outer ++ [(path, owner)]) {composition : Composition}
    (member : composition ∈ (graph.stateAt (.file path)).compositionsOf owner) :
    Walks workspace graph (compose calls (.file path) owner composition) fun _ _ => True := by
  refine .bind ((Walks.mapM ?_).weaken ?_)
  · intro reference referred current returns
    have same := (returns.develops works.isOpen).sameDeclarations
    apply walks_referenceNames walk (returns.works works)
    intro specifier isFile
    rw [same.askedFor]
    exact ModuleState.mem_askedFor_of_composition member referred isFile
  · intro parts current returns _
    have same := (returns.develops works.isOpen).sameDeclarations
    have owns := ModuleState.contains_of_mem_compositionsOf member
    rw [← same.compositions] at owns
    exact .update (returns.works works).isOpen
      (.composed owns (returns.resolving.trans innermost) _ _) trivial

theorem walks_compositions (walk : calls.Walk workspace) (works : graph.Works workspace path)
    {owner : String} {outer : List (Path × String)}
    (innermost : graph.resolving = outer ++ [(path, owner)]) :
    Walks workspace graph
      (((graph.stateAt (.file path)).compositionsOf owner).forM
        (compose calls (.file path) owner)) fun _ _ => True := by
  refine .forM (fun _ _ => True) trivial ?_
  intro done composition rest equal current returns _
  refine walks_compose walk (returns.works works) (returns.resolving.trans innermost) ?_
  have same : (current.stateAt (.file path)).compositionsOf owner =
      (graph.stateAt (.file path)).compositionsOf owner := by
    rw [ModuleState.compositionsOf,
      (returns.develops works.isOpen).sameDeclarations.compositions, ModuleState.compositionsOf]
  simp [same, equal]

theorem released_or_stuck {left : Graph} {owner : String} (returns : graph.Returns workspace left)
    (isOpen : left.IsOpen (.file path)) (free : (path, owner) ∉ graph.resolving) :
    let after := left.setState (.file path) ((left.stateAt (.file path)).release owner)
    graph.Returns workspace after ∧ owner ∉ (after.stateAt (.file path)).pending ∨
      graph.Stuck workspace after path owner := by
  rw [← returns.resolving] at free
  dsimp only
  by_cases whole : ∀ entry, (left.stateAt (.file path)).table.get? owner = some entry →
      entry.isLiteral → (left.stateAt (.file path)).compositions.contains owner
  · refine .inl ⟨returns.trans (.setState isOpen (.released free (.inr whole))), ?_⟩
    rw [stateAt_setState, ModuleState.mem_release]
    exact fun waiting => waiting.2 rfl
  · push Not at whole
    obtain ⟨entry, found, isText, unowned⟩ := whole
    refine .inr ⟨⟨?_, returns.resolving⟩, ⟨_, (get?_setState ..).trans (if_pos rfl)⟩, ?_, ?_⟩
    · exact (returns.steps.mono False.elim).tail
        (.altered isOpen (.released free (.inl trivial)))
    · rw [stateAt_setState]
      exact ⟨entry, found, isText⟩
    · rw [stateAt_setState]
      exact unowned

theorem ensures_resolveOwner (walk : calls.Walk workspace) (works : graph.Works workspace path)
    (owner : String) :
    Ensures graph (resolveOwner calls (.file path) owner)
      (fun _ after =>
        graph.Returns workspace after ∧ owner ∉ (after.stateAt (.file path)).pending ∨
          graph.Stuck workspace after path owner)
      fun _ after => graph.Breaks workspace after := by
  refine Ensures.stateAt ?_
  split
  · rename_i settled
    refine Ensures.pure (.inl ⟨.refl workspace graph, ?_⟩)
    simpa [ModuleState.isSettled] using settled
  rename_i waits
  have waits : owner ∈ (graph.stateAt (.file path)).pending := by
    simpa [ModuleState.isSettled] using waits
  refine Ensures.bind (Ensures.whileResolving (fun _ _ => .refl workspace graph) ?_)
  intro entered enters
  obtain ⟨free, innermost, slots⟩ := enter_eq_ok enters
  have works' := works.entered waits enters
  rw [← stateAt_congr slots]
  refine Ensures.mono (walks_compositions walk works' innermost) ?_ ?_
  · rintro _ after ⟨returns, _⟩
    exact Ensures.update (released_or_stuck (returns.inside works.isOpen waits enters)
      (returns.works works').isOpen free)
  · exact fun _ _ breaks => breaks.inside works.isOpen waits enters

theorem walks_resolveImport (walk : calls.Walk workspace) (works : graph.Works workspace path)
    {reference : ImportReference} (listed : reference ∈ (graph.stateAt (.file path)).imports) :
    Walks workspace graph (resolveImport calls (.file path) reference) fun _ after =>
      (after.stateAt (.file path)).symbols.contains reference.localName := by
  have asks := ModuleState.mem_askedFor_of_import listed
  refine .bind ((walk.load graph _ path _ works asks).weaken ?_)
  rintro handle loaded returns ⟨offers, means⟩
  have needs : graph.Needs workspace path handle.path := ⟨_, asks, means⟩
  refine .bind ((walks_lookUp walk (returns.works works) offers (returns.steps.needs needs)
    _ _ _ _).weaken ?_)
  rintro entry current further ⟨offers, found⟩
  have returns := returns.trans further
  have same := (returns.develops works.isOpen).sameDeclarations
  refine .update (returns.works works).isOpen
    (.imported (same.imports ▸ listed) means offers found) ?_
  rw [stateAt_setState, OrderedMap.contains, ModuleState.get?_symbols_recordImported, if_pos rfl]
  rfl

theorem walks_imports (walk : calls.Walk workspace) (works : graph.Works workspace path) :
    Walks workspace graph
      ((graph.stateAt (.file path)).imports.forM (resolveImport calls (.file path)))
      fun _ after => ∀ reference ∈ (graph.stateAt (.file path)).imports,
        (after.stateAt (.file path)).symbols.contains reference.localName := by
  refine .forM (fun (done : List ImportReference) current => ∀ reference ∈ done,
    (current.stateAt (.file path)).symbols.contains reference.localName) (by simp) ?_
  intro done reference rest equal current returns known
  have same := (returns.develops works.isOpen).sameDeclarations
  have listed : reference ∈ (current.stateAt (.file path)).imports := by simp [same.imports, equal]
  have works' := returns.works works
  apply (walks_resolveImport walk works' listed).weaken
  intro _ after further added other member
  rcases List.mem_append.mp member with earlier | last
  · exact (further.develops works'.isOpen).contains_symbols (known other earlier)
  · exact List.mem_singleton.mp last ▸ added

theorem walks_owners (walk : calls.Walk workspace) (works : graph.Works workspace path)
    (settled : ∀ name, ¬ (graph.stateAt (.file path)).literals.contains name) :
    Walks workspace graph
      ((graph.stateAt (.file path)).compositions.keys.forM (calls.resolveOwner (.file path)))
      fun _ after => ∀ owner ∈ (graph.stateAt (.file path)).compositions.keys,
        owner ∉ (after.stateAt (.file path)).pending := by
  refine .forM (fun done current => ∀ owner ∈ done,
    owner ∉ (current.stateAt (.file path)).pending) (by simp) ?_
  intro done owner rest equal current returns released
  have works' := returns.works works
  have develops := returns.develops works.isOpen
  have owns : (current.stateAt (.file path)).compositions.contains owner := by
    rw [OrderedMap.contains_iff_mem_keys, develops.sameDeclarations.compositions]
    simp [equal]
  apply (walks_owner walk works' owns).weaken
  intro _ after further last other member waits
  -- No literal is left that could be put off, so an owner that is released never waits again.
  rcases List.mem_append.mp member with earlier | isLast
  · refine released other earlier ((further.develops works'.isOpen).mem_pending ?_ waits)
    exact fun known => settled other (develops.contains_literals known)
  · exact last (List.mem_singleton.mp isLast ▸ waits)

theorem walks_resolve (walk : calls.Walk workspace) (works : graph.Works workspace path) :
    Walks workspace graph (resolve calls (.file path)) fun _ after =>
      (after.stateAt (.file path)).Complete := by
  refine .stateAt (.bind ((walks_imports walk works).weaken ?_))
  intro _ imported returns known
  have works' := returns.works works
  have sameImports := (returns.develops works.isOpen).sameDeclarations.imports
  refine .bind (.update works'.isOpen (.settled []) (.stateAt ?_))
  have settles : imported.Returns workspace (imported.setState (.file path)
      ((imported.stateAt (.file path)).settleLiterals [])) :=
    .setState works'.isOpen (.settled [])
  have noLiterals : ((imported.setState (.file path)
      ((imported.stateAt (.file path)).settleLiterals [])).stateAt (.file path)).literals =
        .empty := by
    rw [stateAt_setState, ModuleState.literals_settleLiterals_nil]
  generalize imported.setState (.file path) ((imported.stateAt (.file path)).settleLiterals []) =
    settled at *
  have develops := settles.develops works'.isOpen
  have works' := settles.works works'
  have settled : ∀ name, ¬ (settled.stateAt (.file path)).literals.contains name := by
    simp [noLiterals]
  apply (walks_owners walk works' settled).weaken
  intro _ after further released
  have further := further.develops works'.isOpen
  have same := further.sameDeclarations
  constructor
  · intro owner owns
    rw [same.compositions, OrderedMap.contains_iff_mem_keys] at owns
    exact released owner owns
  · exact fun name remains => settled name (further.contains_literals remains)
  · intro reference listed
    rw [same.imports, develops.sameDeclarations.imports, sameImports] at listed
    exact further.contains_symbols (develops.contains_symbols (known reference listed))

end Resolution

/-! ## Files -/

namespace Graph

variable {workspace : Workspace} {graph : Graph} {path : Path}

theorem isOpen_closing_iff {sheet : Stylesheet} {site : Site} :
    (graph.closing workspace path sheet).IsOpen site ↔ site ≠ .file path ∧ graph.IsOpen site := by
  by_cases equal : site = .file path <;> simp [IsOpen, get?_closing, equal]

theorem isOpen_opening_iff {source : String} {site : Site} :
    (graph.opening workspace path source).IsOpen site ↔ site = .file path ∨ graph.IsOpen site := by
  by_cases equal : site = .file path <;> simp [IsOpen, get?_opening, equal]

end Graph

namespace Compilation

variable {workspace : Workspace} {calls : Calls} {graph : Graph} {importer path : Path}

theorem returns_closing {source : String} {resolved : Graph} {sheet : Stylesheet}
    (works : graph.Works workspace importer) (needs : graph.Needs workspace importer path)
    (absent : graph.slots.get? (.file path) = none)
    (readable : workspace.files.read path = .ok source)
    (collects : (workspace.collection path source).1 = .ok sheet)
    (returns : ((graph.record (.read path)).opening workspace path source).Returns workspace
      resolved)
    (complete : (resolved.stateAt (.file path)).Complete) :
    graph.Returns workspace (resolved.closing workspace path sheet) := by
  have isOpen : resolved.IsOpen (.file path) := (returns.opened _).mpr (isOpen_opening ..)
  constructor
  · exact (returns.steps.head (.taken works needs absent readable (.inr ⟨sheet, collects⟩))).tail
      (.closed isOpen complete sheet)
  · exact returns.resolving.trans (resolving_opening ..)
  · intro site
    rw [isOpen_closing_iff, returns.opened, isOpen_opening_iff]
    constructor
    · rintro ⟨different, equal | isOpen⟩
      · exact absurd equal different
      · exact isOpen
    · intro isOpen
      refine ⟨?_, .inr isOpen⟩
      rintro rfl
      obtain ⟨state, found⟩ := isOpen
      rw [absent] at found
      cases found

theorem ensures_compile_read (walk : calls.Walk workspace) {source : String}
    (works : graph.Works workspace importer) (needs : graph.Needs workspace importer path)
    (absent : graph.slots.get? (.file path) = none)
    (readable : workspace.files.read path = .ok source) :
    Ensures (graph.record (.read path))
      (compile workspace (Resolution.resolve calls) path source)
      (fun compiled after => graph.Returns workspace after ∧ compiled.path = path ∧
        after.slots.get? (.file path) = some (.finished compiled))
      fun _ after => graph.Breaks workspace after := by
  have taken : graph.Breaks workspace
      ((graph.record (.read path)).opening workspace path source) :=
    ⟨.single (.taken works needs absent readable (.inl trivial)), resolving_opening ..⟩
  unfold Ensures
  rw [outcome_compile]
  cases collects : (workspace.collection path source).1 with
  | error failure => exact taken
  | ok sheet =>
    have resolves := Resolution.walks_resolve walk (works.taken needs absent readable)
    unfold Walks Ensures at resolves
    dsimp only
    generalize outcome (Resolution.resolve calls (.file path))
      ((graph.record (.read path)).opening workspace path source) = ending at resolves
    obtain ⟨result, resolved⟩ := ending
    cases result with
    | error halt => exact taken.trans resolves
    | ok _ =>
      obtain ⟨returns, complete⟩ := resolves
      refine ⟨returns_closing works needs absent readable collects returns complete, rfl, ?_⟩
      rw [get?_closing, if_pos rfl]

theorem walks_load (walk : calls.Walk workspace) (works : graph.Works workspace importer)
    {specifier : String} (asks : specifier ∈ (graph.stateAt (.file importer)).askedFor)
    (location : Location) :
    Walks workspace graph (load workspace calls specifier importer location) fun handle after =>
      after.Offers handle ∧
        workspace.resolver.resolve workspace.files specifier importer = .ok handle.path := by
  unfold load
  cases means : workspace.resolver.resolve workspace.files specifier importer with
  | error reason => exact .fail
  | ok path =>
    have needs : graph.Needs workspace importer path := ⟨specifier, asks, means⟩
    refine .get ?_
    dsimp only
    cases known : graph.handle? path with
    | some handle =>
      obtain ⟨offers, rfl⟩ := offers_of_handle? works.filed known
      have has := has_of_handle? known
      have cached : graph.Returns workspace (graph.record (.cached handle.path importer)) :=
        .note (.cached has importer)
      exact .bind (.note (.cached has importer) (.bind
        (.note (.handed (cached.works works) (cached.steps.needs needs) known)
          (.pure ⟨offers, rfl⟩))))
    | none =>
      have absent := absent_of_handle? known
      refine .bind (.note (.resolved specifier importer path) ?_)
      have resolved : graph.Returns workspace (graph.record (.resolved specifier importer path)) :=
        .note (.resolved specifier importer path)
      have works := resolved.works works
      have needs := resolved.steps.needs needs
      cases readable : workspace.files.read path with
      | error reason => exact .fail
      | ok source =>
        refine Ensures.bind (Ensures.note (Ensures.bind
          (Ensures.mono (ensures_compile_read walk works needs absent readable) ?_ fun _ _ => id)))
        rintro compiled after ⟨returns, rfl, found⟩
        have known : after.handle? compiled.path = some (.ready compiled) := by
          simp [handle?, found]
        exact Walks.following returns (.bind
          (.note (.handed (returns.works works) (returns.steps.needs needs) known)
            (.pure ⟨found, rfl⟩)))

theorem calls_walk (workspace : Workspace) :
    (depth : Nat) → (Compilation.calls workspace depth).Walk workspace
  -- No request is answered at depth 0; deeper ones make requests that may nest one level less.
  | 0 =>
    { load := fun graph _ _ _ _ _ => .refl workspace graph
      resolveOwner := fun graph _ _ _ => .refl workspace graph }
  | depth + 1 =>
    have deeper := calls_walk workspace depth
    { load := fun _ _ _ location works asks => walks_load deeper works asks location
      resolveOwner := fun _ _ owner works => Resolution.ensures_resolveOwner deeper works owner }

end Compilation

end ScopedStyles
