import ScopedStyles.Proofs.Caching.Mirroring
import ScopedStyles.Proofs.Graph.Results

/-!
The single steps of a compilation. Between two steps every file has a slot or none, and some files
are open; a file is at work when all open files ask for it, directly or through others. The relation
`Step` lists everything that can happen next: what is noted, which names are entered and left, how
the state of an open file changes, and when a file is taken from the disk or closed.

Some names are released only by requests that fail right afterwards; those steps are admitted in
runs that are `doomed`.
-/

namespace ScopedStyles

inductive Slot.Becomes : Slot → Slot → Prop where
  | develops {state later : ModuleState} (develops : state.Develops (fun _ => False) later) :
      Becomes (.inFlight state) (.inFlight later)
  | finishes {state : ModuleState} {compiled : CompiledModule}
      (develops : state.Develops (fun _ => False) compiled.state) :
      Becomes (.inFlight state) (.finished compiled)
  | stays (compiled : CompiledModule) : Becomes (.finished compiled) (.finished compiled)

namespace Slot.Becomes

variable {slot middle later : Slot}

theorem refl : (slot : Slot) → slot.Becomes slot
  | .inFlight _ => .develops .refl
  | .finished compiled => .stays compiled

theorem trans (first : slot.Becomes middle) (second : middle.Becomes later) :
    slot.Becomes later := by
  cases first with
  | develops develops =>
    cases second with
    | develops further => exact .develops (develops.trans further)
    | finishes further => exact .finishes (develops.trans further)
  | finishes develops =>
    cases second
    exact .finishes develops
  | stays => exact second

theorem state (becomes : slot.Becomes later) :
    slot.state.Develops (fun _ => False) later.state := by
  cases becomes with
  | develops develops => exact develops
  | finishes develops => exact develops
  | stays => exact .refl

theorem finished {compiled : CompiledModule} (becomes : Becomes (.finished compiled) later) :
    later = .finished compiled := by
  cases becomes
  rfl

end Slot.Becomes

namespace Graph

/-! ## Files at work -/

/-- A file asks for another one: one of its specifiers means it. -/
def Needs (workspace : Workspace) (graph : Graph) (path target : Path) : Prop :=
  ∃ specifier ∈ (graph.stateAt (.file path)).askedFor,
    workspace.resolver.resolve workspace.files specifier path = .ok target

/-- A file is at work: every open file asks for it, directly or through others. -/
structure Works (workspace : Workspace) (graph : Graph) (path : Path) : Prop where
  isOpen : graph.IsOpen (.file path)
  leads : ∀ other, graph.IsOpen (.file other) →
    Relation.ReflTransGen (graph.Needs workspace) other path
  filed : graph.Filed

/-! ## Steps -/

inductive Happens (workspace : Workspace) (graph : Graph) : GraphEvent → Prop where
  | cached {path : Path} (known : graph.has path) (importer : Path) :
      Happens workspace graph (.cached path importer)
  | resolved (specifier : String) (importer path : Path) :
      Happens workspace graph (.resolved specifier importer path)
  | handed {path importer : Path} {handle : Handle} (works : graph.Works workspace importer)
      (needs : graph.Needs workspace importer path) (known : graph.handle? path = some handle) :
      Happens workspace graph (.handed path importer handle.isReady)
  | answered {path : Path} (isOpen : graph.IsOpen (.file path)) (name : String) :
      Happens workspace graph (.answered path name ((graph.stateAt (.file path)).lookup name))

/-- How the state of an open file can change. An import is recorded with what the other file
answers, and names are composed into the owner that is being resolved. A name without compositions
that stands for text is released by failing requests only. -/
inductive Alters (workspace : Workspace) (doomed : Prop) (graph : Graph) (path : Path) :
    ModuleState → Prop where
  | settled (blocked : List String) :
      Alters workspace doomed graph path ((graph.stateAt (.file path)).settleLiterals blocked)
  | imported {reference : ImportReference} {handle : Handle} {entry : TokenEntry}
      (listed : reference ∈ (graph.stateAt (.file path)).imports)
      (means : workspace.resolver.resolve workspace.files reference.specifier path =
        .ok handle.path)
      (offers : graph.Offers handle)
      (found : graph.lookup handle reference.imported = .found entry) :
      Alters workspace doomed graph path
        ((graph.stateAt (.file path)).recordImported reference.localName entry)
  | composed {owner : String} {outer : List (Path × String)}
      (owns : (graph.stateAt (.file path)).compositions.contains owner)
      (innermost : graph.resolving = outer ++ [(path, owner)]) (names : List String)
      (isExternal : Bool) :
      Alters workspace doomed graph path
        ((graph.stateAt (.file path)).compose owner names isExternal)
  | released {name : String} (free : (path, name) ∉ graph.resolving)
      (whole : doomed ∨ ∀ entry, (graph.stateAt (.file path)).table.get? name = some entry →
        entry.isLiteral → (graph.stateAt (.file path)).compositions.contains name) :
      Alters workspace doomed graph path ((graph.stateAt (.file path)).release name)

inductive Step (workspace : Workspace) (doomed : Prop) (graph : Graph) : Graph → Prop where
  | noted {event : GraphEvent} (happens : graph.Happens workspace event) :
      Step workspace doomed graph (graph.record event)
  | entered {path : Path} {name : String} {entered : Graph} (isOpen : graph.IsOpen (.file path))
      (waits : name ∈ (graph.stateAt (.file path)).pending)
      (enters : graph.enter path name = .ok entered) : Step workspace doomed graph entered
  | left {outer : List (Path × String)} {entry : Path × String}
      (innermost : graph.resolving = outer ++ [entry]) : Step workspace doomed graph graph.leave
  | altered {path : Path} {later : ModuleState} (isOpen : graph.IsOpen (.file path))
      (alters : graph.Alters workspace doomed path later) :
      Step workspace doomed graph (graph.setState (.file path) later)
  | taken {importer path : Path} {source : String} (works : graph.Works workspace importer)
      (needs : graph.Needs workspace importer path)
      (absent : graph.slots.get? (.file path) = none)
      (readable : workspace.files.read path = .ok source)
      (whole : doomed ∨ ∃ sheet, (workspace.collection path source).1 = .ok sheet) :
      Step workspace doomed graph ((graph.record (.read path)).opening workspace path source)
  | closed {path : Path} (isOpen : graph.IsOpen (.file path))
      (complete : (graph.stateAt (.file path)).Complete) (sheet : Stylesheet) :
      Step workspace doomed graph (graph.closing workspace path sheet)

def Steps (workspace : Workspace) (doomed : Prop) : Graph → Graph → Prop :=
  Relation.ReflTransGen (Step workspace doomed)

variable {workspace : Workspace} {doomed : Prop} {graph after : Graph} {path target : Path}

theorem Alters.mono {doomed' : Prop} (dooms : doomed → doomed') {later : ModuleState}
    (alters : graph.Alters workspace doomed path later) :
    graph.Alters workspace doomed' path later := by
  cases alters with
  | settled blocked => exact .settled blocked
  | imported listed means offers found => exact .imported listed means offers found
  | composed owns innermost names isExternal => exact .composed owns innermost names isExternal
  | released free whole => exact .released free (whole.imp_left dooms)

theorem Step.mono {doomed' : Prop} (dooms : doomed → doomed')
    (step : graph.Step workspace doomed after) : graph.Step workspace doomed' after := by
  cases step with
  | noted happens => exact .noted happens
  | entered isOpen waits enters => exact .entered isOpen waits enters
  | left innermost => exact .left innermost
  | altered isOpen alters => exact .altered isOpen (alters.mono dooms)
  | taken works needs absent readable whole =>
    exact .taken works needs absent readable (whole.imp_left dooms)
  | closed isOpen complete sheet => exact .closed isOpen complete sheet

theorem Steps.mono {doomed' : Prop} (dooms : doomed → doomed')
    (steps : graph.Steps workspace doomed after) : graph.Steps workspace doomed' after :=
  steps.lift id fun _ _ step => step.mono dooms

theorem Steps.keeps {holds : Graph → Prop}
    (step : ∀ {graph after}, Step workspace doomed graph after → holds graph → holds after)
    (steps : graph.Steps workspace doomed after) (start : holds graph) : holds after := by
  induction steps with
  | refl => exact start
  | tail _ last earlier => exact step last earlier

/-! ## What becomes of slots -/

theorem Alters.develops {later : ModuleState} (alters : graph.Alters workspace doomed path later) :
    (graph.stateAt (.file path)).Develops (fun _ => False) later := by
  cases alters with
  | settled blocked => exact .single (.settled blocked)
  | imported listed _ _ _ => exact .single (.imported listed _)
  | composed owns _ names isExternal => exact .single (.composed owns id names isExternal)
  | released => exact .single (.released id)

theorem slots_enter {entered : Graph} {name : String}
    (enters : graph.enter path name = .ok entered) : entered.slots = graph.slots :=
  (enter_eq_ok enters).2.2

/-- No slot is lost, finished files stay, and open ones develop until they are closed. -/
theorem Step.becomes (step : graph.Step workspace doomed after) {site : Site} {slot : Slot}
    (found : graph.slots.get? site = some slot) :
    ∃ later, after.slots.get? site = some later ∧ slot.Becomes later := by
  cases step with
  | noted => exact ⟨slot, found, .refl slot⟩
  | entered _ _ enters => exact ⟨slot, slots_enter enters ▸ found, .refl slot⟩
  | left => exact ⟨slot, found, .refl slot⟩
  | @altered path later isOpen alters =>
    rw [get?_setState]
    split
    · rename_i equal
      obtain ⟨state, isState⟩ := isOpen
      obtain rfl : slot = .inFlight state := Option.some.inj (found.symm.trans (equal ▸ isState))
      have develops := alters.develops
      rw [stateAt_of_get? isState] at develops
      exact ⟨_, rfl, .develops develops⟩
    · exact ⟨slot, found, .refl slot⟩
  | @taken importer path source _ _ absent _ _ =>
    rw [get?_opening, if_neg]
    · exact ⟨slot, found, .refl slot⟩
    · rintro rfl
      rw [absent] at found
      cases found
  | @closed path isOpen _ sheet =>
    rw [get?_closing]
    split
    · rename_i equal
      obtain ⟨state, isState⟩ := isOpen
      obtain rfl : slot = .inFlight state := Option.some.inj (found.symm.trans (equal ▸ isState))
      rw [stateAt_of_get? isState]
      exact ⟨_, rfl, .finishes .refl⟩
    · exact ⟨slot, found, .refl slot⟩

theorem ne_of_isOpen {site other : Site} (isOpen : graph.IsOpen site)
    (absent : graph.slots.get? other = none) : other ≠ site := by
  rintro rfl
  obtain ⟨state, found⟩ := isOpen
  cases absent.symm.trans found

theorem Step.added (step : graph.Step workspace doomed after) {site : Site} {slot : Slot}
    (absent : graph.slots.get? site = none) (found : after.slots.get? site = some slot) :
    ∃ path source, site = .file path ∧ workspace.files.read path = .ok source ∧
      (doomed ∨ ∃ sheet, (workspace.collection path source).1 = .ok sheet) ∧
      slot = .inFlight (workspace.collection path source).2.state := by
  cases step with
  | noted => cases absent.symm.trans found
  | entered _ _ enters =>
    rw [slots_enter enters, absent] at found
    cases found
  | left => cases absent.symm.trans found
  | altered isOpen =>
    rw [get?_setState, if_neg (ne_of_isOpen isOpen absent), absent] at found
    cases found
  | @taken _ path source _ _ _ readable whole =>
    rw [get?_opening] at found
    split at found
    · rename_i isFile
      cases found
      exact ⟨path, source, isFile, readable, whole, rfl⟩
    · cases absent.symm.trans found
  | closed isOpen =>
    rw [get?_closing, if_neg (ne_of_isOpen isOpen absent), absent] at found
    cases found

theorem Steps.becomes (steps : graph.Steps workspace doomed after) {site : Site} {slot : Slot}
    (found : graph.slots.get? site = some slot) :
    ∃ later, after.slots.get? site = some later ∧ slot.Becomes later := by
  induction steps with
  | refl => exact ⟨slot, found, .refl slot⟩
  | tail _ step induction =>
    obtain ⟨middle, foundMiddle, becomes⟩ := induction
    obtain ⟨later, foundLater, further⟩ := step.becomes foundMiddle
    exact ⟨later, foundLater, becomes.trans further⟩

theorem Steps.has (steps : graph.Steps workspace doomed after) (known : graph.has path) :
    after.has path := by
  obtain ⟨slot, found⟩ := (OrderedMap.contains_iff_get? _ _).mp known
  obtain ⟨later, foundLater, _⟩ := steps.becomes found
  exact (OrderedMap.contains_iff_get? _ _).mpr ⟨later, foundLater⟩

theorem Steps.finished (steps : graph.Steps workspace doomed after) {site : Site}
    {compiled : CompiledModule} (found : graph.slots.get? site = some (.finished compiled)) :
    after.slots.get? site = some (.finished compiled) := by
  obtain ⟨later, foundLater, becomes⟩ := steps.becomes found
  exact becomes.finished ▸ foundLater

theorem Steps.develops (steps : graph.Steps workspace doomed after) {site : Site} {slot : Slot}
    (found : graph.slots.get? site = some slot) :
    (graph.stateAt site).Develops (fun _ => False) (after.stateAt site) := by
  obtain ⟨later, foundLater, becomes⟩ := steps.becomes found
  rw [stateAt_of_get? found, stateAt_of_get? foundLater]
  exact becomes.state

theorem Step.filed (step : graph.Step workspace doomed after) (filed : graph.Filed) :
    after.Filed := by
  cases step with
  | noted => exact filed
  | entered _ _ enters => exact filed.congr (slots_enter enters)
  | left => exact filed
  | altered => exact filed.setState _ _
  | @taken _ path =>
    have recorded : (graph.record (.read path)).Filed := filed
    exact recorded.opening _ _ _
  | closed => exact filed.closing _ _ _

theorem Steps.filed (steps : graph.Steps workspace doomed after) (filed : graph.Filed) :
    after.Filed :=
  steps.keeps Step.filed filed

/-! ## What else one step changes -/

theorem stateAt_of_same {site : Site} (same : after.slots.get? site = graph.slots.get? site) :
    after.stateAt site = graph.stateAt site := by
  rw [stateAt, same, stateAt]

theorem stateAt_closing (graph : Graph) (workspace : Workspace) (path : Path) (sheet : Stylesheet)
    (site : Site) : (graph.closing workspace path sheet).stateAt site = graph.stateAt site := by
  by_cases equal : site = .file path
  · subst equal
    exact stateAt_of_get? ((get?_closing ..).trans (if_pos rfl))
  · exact stateAt_of_same ((get?_closing ..).trans (if_neg equal))

theorem has_of_isOpen (isOpen : graph.IsOpen (.file path)) : graph.has path := by
  obtain ⟨state, found⟩ := isOpen
  exact (OrderedMap.contains_iff_get? _ _).mpr ⟨_, found⟩

/-- A step alters the state of an open file, or gives a new file what is collected from its text;
the states of other files stay. -/
theorem Step.changes (step : graph.Step workspace doomed after) (path : Path) :
    after.stateAt (.file path) = graph.stateAt (.file path) ∨
      graph.IsOpen (.file path) ∧
        graph.Alters workspace doomed path (after.stateAt (.file path)) ∨
      graph.slots.get? (.file path) = none ∧
        ∃ source, workspace.files.read path = .ok source ∧
          (doomed ∨ ∃ sheet, (workspace.collection path source).1 = .ok sheet) ∧
          after.stateAt (.file path) = (workspace.collection path source).2.state := by
  cases step with
  | noted => exact .inl rfl
  | entered _ _ enters => exact .inl (stateAt_congr (slots_enter enters) _)
  | left => exact .inl rfl
  | @altered other later isOpen alters =>
    by_cases equal : path = other
    · subst equal
      rw [stateAt_setState]
      exact .inr (.inl ⟨isOpen, alters⟩)
    · exact .inl (stateAt_of_same ((get?_setState ..).trans (if_neg (by simpa using equal))))
  | @taken importer other source _ _ absent readable whole =>
    by_cases equal : path = other
    · subst equal
      rw [stateAt_opening]
      exact .inr (.inr ⟨absent, source, readable, whole, rfl⟩)
    · exact .inl (stateAt_of_same ((get?_opening ..).trans (if_neg (by simpa using equal))))
  | closed => exact .inl (stateAt_closing ..)

/-- A name that is being resolved was being resolved before, or has just been entered. -/
theorem Step.resolving (step : graph.Step workspace doomed after) {name : String}
    (member : (path, name) ∈ after.resolving) :
    (path, name) ∈ graph.resolving ∨ graph.IsOpen (.file path) ∧
      name ∈ (graph.stateAt (.file path)).pending ∧ after.slots = graph.slots := by
  cases step with
  | noted => exact .inl member
  | entered isOpen waits enters =>
    rw [(enter_eq_ok enters).2.1] at member
    rcases List.mem_append.mp member with earlier | last
    · exact .inl earlier
    · cases List.mem_singleton.mp last
      exact .inr ⟨isOpen, waits, slots_enter enters⟩
  | left => exact .inl (List.dropLast_subset _ member)
  | altered => exact .inl member
  | taken =>
    rw [resolving_opening] at member
    exact .inl member
  | closed => exact .inl member

/-- A file that is finished was finished before, or has just been closed. -/
theorem Step.closes (step : graph.Step workspace doomed after) {site : Site}
    {compiled : CompiledModule} (found : after.slots.get? site = some (.finished compiled)) :
    graph.slots.get? site = some (.finished compiled) ∨ compiled.state.Complete := by
  cases step with
  | noted => exact .inl found
  | entered _ _ enters => exact .inl (slots_enter enters ▸ found)
  | left => exact .inl found
  | altered =>
    rw [get?_setState] at found
    split at found
    · cases found
    · exact .inl found
  | taken =>
    rw [get?_opening] at found
    split at found
    · cases found
    · exact .inl found
  | closed _ complete =>
    rw [get?_closing] at found
    split at found
    · cases found
      exact .inr complete
    · exact .inl found

/-! ## Files at work, later -/

theorem slot_of_askedFor {site : Site} {specifier : String}
    (asks : specifier ∈ (graph.stateAt site).askedFor) :
    ∃ slot, graph.slots.get? site = some slot := by
  cases found : graph.slots.get? site with
  | some slot => exact ⟨slot, rfl⟩
  | none =>
    rw [stateAt, found] at asks
    cases asks

theorem Steps.needs (steps : graph.Steps workspace doomed after)
    (needs : graph.Needs workspace path target) : after.Needs workspace path target := by
  obtain ⟨specifier, asks, means⟩ := needs
  obtain ⟨slot, found⟩ := slot_of_askedFor asks
  have same := (steps.develops found).sameDeclarations
  exact ⟨specifier, same.askedFor ▸ asks, means⟩

/-- A file that an open file at work asks for is at work when it is open. -/
theorem Works.of_needs (works : graph.Works workspace path)
    (needs : graph.Needs workspace path target) (isOpen : graph.IsOpen (.file target)) :
    graph.Works workspace target where
  isOpen := isOpen
  leads other isOther := (works.leads other isOther).tail needs
  filed := works.filed

theorem Works.taken (works : graph.Works workspace path)
    (needs : graph.Needs workspace path target)
    (absent : graph.slots.get? (.file target) = none) {source : String}
    (readable : workspace.files.read target = .ok source) :
    ((graph.record (.read target)).opening workspace target source).Works workspace target := by
  have steps : graph.Steps workspace True
      ((graph.record (.read target)).opening workspace target source) :=
    .single (.taken works needs absent readable (.inl trivial))
  refine ⟨isOpen_opening _ _ _ _, fun other isOther => ?_, steps.filed works.filed⟩
  -- The other open files lead to the importer, which asks for the file that is taken.
  by_cases equal : other = target
  · exact equal ▸ .refl
  · obtain ⟨state, found⟩ := isOther
    rw [get?_opening, if_neg (by simpa using equal)] at found
    have leads := (works.leads other ⟨state, found⟩).tail needs
    exact leads.lift id fun _ _ => steps.needs

/-! ## Requests -/

/-- What a request does that ends well: step by step, it comes back to the names that were being
resolved and to the files that were open. -/
structure Returns (workspace : Workspace) (graph after : Graph) : Prop where
  steps : graph.Steps workspace False after
  resolving : after.resolving = graph.resolving
  opened : ∀ site, after.IsOpen site ↔ graph.IsOpen site

/-- What a request does that ends early; files may stay open. -/
structure Breaks (workspace : Workspace) (graph after : Graph) : Prop where
  steps : graph.Steps workspace True after
  resolving : after.resolving = graph.resolving

namespace Returns

variable {last : Graph}

theorem refl (workspace : Workspace) (graph : Graph) : graph.Returns workspace graph :=
  ⟨.refl, rfl, fun _ => .rfl⟩

theorem trans (first : graph.Returns workspace after) (second : after.Returns workspace last) :
    graph.Returns workspace last where
  steps := first.steps.trans second.steps
  resolving := second.resolving.trans first.resolving
  opened site := (second.opened site).trans (first.opened site)

theorem breaks (returns : graph.Returns workspace after) : graph.Breaks workspace after :=
  ⟨returns.steps.mono False.elim, returns.resolving⟩

theorem note {event : GraphEvent} (happens : graph.Happens workspace event) :
    graph.Returns workspace (graph.record event) :=
  ⟨.single (.noted happens), rfl, fun _ => .rfl⟩

theorem setState {later : ModuleState} (isOpen : graph.IsOpen (.file path))
    (alters : graph.Alters workspace False path later) :
    graph.Returns workspace (graph.setState (.file path) later) where
  steps := .single (.altered isOpen alters)
  resolving := rfl
  opened site := by
    by_cases equal : site = .file path <;> simp [IsOpen, get?_setState, equal]
    exact isOpen

theorem works (returns : graph.Returns workspace after) (works : graph.Works workspace path) :
    after.Works workspace path where
  isOpen := (returns.opened _).mpr works.isOpen
  leads other isOpen :=
    (works.leads other ((returns.opened _).mp isOpen)).lift id fun _ _ => returns.steps.needs
  filed := returns.steps.filed works.filed

theorem offers (returns : graph.Returns workspace after) {handle : Handle}
    (offers : graph.Offers handle) : after.Offers handle := by
  cases handle with
  | inFlight path => exact (returns.opened _).mpr offers
  | ready compiled => exact returns.steps.finished offers

theorem develops (returns : graph.Returns workspace after) {site : Site}
    (isOpen : graph.IsOpen site) :
    (graph.stateAt site).Develops (fun _ => False) (after.stateAt site) := by
  obtain ⟨state, found⟩ := isOpen
  exact returns.steps.develops found

end Returns

theorem Breaks.refl (workspace : Workspace) (graph : Graph) : graph.Breaks workspace graph :=
  (Returns.refl workspace graph).breaks

theorem Breaks.trans {last : Graph} (first : graph.Breaks workspace after)
    (second : after.Breaks workspace last) : graph.Breaks workspace last where
  steps := first.steps.trans second.steps
  resolving := second.resolving.trans first.resolving

/-! What is done while a name is being resolved. -/

section Inside

variable {entered : Graph} {name : String}

theorem Breaks.inside (isOpen : graph.IsOpen (.file path))
    (waits : name ∈ (graph.stateAt (.file path)).pending)
    (enters : graph.enter path name = .ok entered) (breaks : entered.Breaks workspace after) :
    graph.Breaks workspace after.leave := by
  have innermost := breaks.resolving.trans (enter_eq_ok enters).2.1
  constructor
  · exact (breaks.steps.head (.entered isOpen waits enters)).tail (.left innermost)
  · rw [leave, innermost, List.dropLast_concat]

theorem Returns.inside (isOpen : graph.IsOpen (.file path))
    (waits : name ∈ (graph.stateAt (.file path)).pending)
    (enters : graph.enter path name = .ok entered) (returns : entered.Returns workspace after) :
    graph.Returns workspace after.leave := by
  have innermost := returns.resolving.trans (enter_eq_ok enters).2.1
  constructor
  · exact (returns.steps.head (.entered isOpen waits enters)).tail (.left innermost)
  · rw [leave, innermost, List.dropLast_concat]
  · intro site
    apply (returns.opened site).trans
    rw [IsOpen, slots_enter enters, IsOpen]

end Inside

end Graph

end ScopedStyles
