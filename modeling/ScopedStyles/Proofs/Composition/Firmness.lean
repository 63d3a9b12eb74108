import ScopedStyles.Proofs.Composition.Soundness
import ScopedStyles.Proofs.Graph.Origins
import ScopedStyles.Proofs.Module.Waiting

/-!
What a file answers while it is still being compiled. When every name is introduced in one way, a
name that waits no longer has its last entry, and a name without an entry never gets one; so an
answer is never taken back. The reason differs by the kind of name: a literal waits until it is
settled, an owner of compositions waits while names are added to it, and an imported value may be
written again, but only with the text of the same final entry.
-/

namespace ScopedStyles

namespace Graph

variable {graph : Graph} {path : Path} {name : String}

/-- A file has settled what it answers for a name. -/
structure Holds (graph : Graph) (path : Path) (name : String) (answer : Lookup) : Prop where
  has : graph.has path
  settled : graph.IsSettled path name
  answers : (graph.stateAt (.file path)).table.lookup name = answer

theorem holds_of_lookup (isOpen : graph.IsOpen (.file path))
    (settled : (graph.stateAt (.file path)).lookup name ≠ .unsettled) :
    graph.Holds path name ((graph.stateAt (.file path)).lookup name) := by
  unfold ModuleState.lookup at settled ⊢
  split at settled
  · rename_i released
    rw [if_pos released]
    exact ⟨has_of_isOpen isOpen, .inl (by simpa [ModuleState.isSettled] using released), rfl⟩
  · exact absurd rfl settled

theorem holds_of_found {handle : Handle} {entry : TokenEntry} (offers : graph.Offers handle)
    (found : graph.lookup handle name = .found entry) :
    graph.Holds handle.path name (.found entry) := by
  obtain ⟨isEntry, settled⟩ := entry_of_lookup offers found
  obtain ⟨slot, isSlot, _⟩ := slot_of_entry isEntry
  refine ⟨(OrderedMap.contains_iff_get? _ _).mpr ⟨slot, isSlot⟩, settled, ?_⟩
  rw [TokenTable.lookup, isEntry]

end Graph

namespace Project

open ScopedStyles.Graph

variable {project : Project} {graph after : Graph} {path : Path} {name : String} {answer : Lookup}

theorem Follows.step (follows : project.Follows graph) (rooted : graph.has project.root)
    (step : graph.Step project.workspace False after) : project.Follows after := by
  cases step with
  | noted => exact follows.congr rfl
  | entered _ _ enters => exact follows.congr (slots_enter enters)
  | left => exact follows.congr rfl
  | altered isOpen alters =>
    exact follows.replace (graph.get?_setState _ · _) nofun
      ((follows.develops_of_isOpen isOpen).trans alters.develops)
  | @taken _ path source _ _ absent readable whole =>
    obtain ⟨sheet, collects⟩ := whole.resolve_left id
    have recorded : project.Follows (graph.record (.read path)) := follows.congr rfl
    exact recorded.opening (text_of_read (ne_root_of_absent rooted absent) readable) collects
  | closed isOpen _ sheet => exact follows.closing isOpen sheet

/-! ## Files between two steps -/

/-- The name that an import means has a final entry, which fits. -/
def Imported (project : Project) (graph : Graph) (path : Path) (reference : ImportReference)
    (fits : TokenEntry → Prop) : Prop :=
  ∃ target entry,
    project.workspace.resolver.resolve project.workspace.files reference.specifier path =
      .ok target ∧
    graph.Holds target reference.imported (.found entry) ∧ fits entry

/-- What holds of the state of a file between two steps. -/
structure Rests (project : Project) (graph : Graph) (path : Path) (state : ModuleState) : Prop where
  /-- A literal waits until it is settled. -/
  literals : ∀ name, state.literals.contains name → name ∈ state.pending
  /-- An imported value waits until its import is recorded. -/
  values : ∀ name ∈ state.valueAliases, name ∉ state.pending → ∃ text,
    state.symbols.get? name = some text ∧ state.table.get? name = some (.plain .literal text)
  /-- The text of an import is that of a final entry. -/
  imports : ∀ reference ∈ state.imports, ∀ text,
    state.symbols.get? reference.localName = some text →
    project.Imported graph path reference (·.joined = text)
  /-- The names of an imported class are those of a final entry. -/
  aliases : ∀ reference ∈ state.imports, ∀ names,
    state.classAliases.get? reference.localName = some names →
    project.Imported graph path reference (·.names = names)

/-- What holds of all files between two steps: whatever a file has answered, it holds to. -/
structure Firm (project : Project) (graph : Graph) : Prop extends Follows project graph where
  rooted : graph.has project.root
  rests : ∀ path, project.Rests graph path (graph.stateAt (.file path))
  entered : ∀ path name, (path, name) ∈ graph.resolving → graph.has path
  /-- An owner waits while its compositions are being resolved. -/
  owners : ∀ path owner, (path, owner) ∈ graph.resolving →
    (graph.stateAt (.file path)).compositions.contains owner →
    owner ∈ (graph.stateAt (.file path)).pending
  complete : ∀ path compiled, graph.slots.get? (.file path) = some (.finished compiled) →
    compiled.state.Complete
  answered : ∀ path name answer, .answered path name answer ∈ graph.events →
    answer ≠ .unsettled → graph.Holds path name answer

theorem Imported.weaken {reference : ImportReference} {fits others : TokenEntry → Prop}
    (imported : project.Imported graph path reference fits)
    (less : ∀ entry, fits entry → others entry) :
    project.Imported graph path reference others := by
  obtain ⟨target, entry, means, holds, isFit⟩ := imported
  exact ⟨target, entry, means, holds, less entry isFit⟩

theorem Imported.mono {reference : ImportReference} {fits : TokenEntry → Prop}
    (keeps : ∀ path name answer, graph.Holds path name answer → after.Holds path name answer)
    (imported : project.Imported graph path reference fits) :
    project.Imported after path reference fits := by
  obtain ⟨target, entry, means, holds, isFit⟩ := imported
  exact ⟨target, entry, means, keeps _ _ _ holds, isFit⟩

theorem Rests.mono {state : ModuleState}
    (keeps : ∀ path name answer, graph.Holds path name answer → after.Holds path name answer)
    (rests : project.Rests graph path state) : project.Rests after path state where
  literals := rests.literals
  values := rests.values
  imports reference listed text known := (rests.imports reference listed text known).mono keeps
  aliases reference listed names known := (rests.aliases reference listed names known).mono keeps

/-! ## Kinds of names -/

section Kinds

variable (oneWay : project.OneWay) (follows : project.Follows graph)
  (isOpen : graph.IsOpen (.file path))

include oneWay follows isOpen

theorem unwritten_of_owns {owner : String}
    (owns : (graph.stateAt (.file path)).compositions.contains owner) :
    (graph.stateAt (.file path)).Unwritten owner := by
  have develops := follows.develops_of_isOpen isOpen
  rw [develops.sameDeclarations.compositions] at owns
  have namesClass := (Collect.namesClass_of_contains_compositions (oneWay path) owns).1
  exact develops.unwritten namesClass.toUnwritten

theorem text_of_awaitsText (awaits : (graph.stateAt (.file path)).AwaitsText name) :
    ∃ entry, (graph.stateAt (.file path)).table.get? name = some entry ∧ entry.isLiteral := by
  have develops := follows.develops_of_isOpen isOpen
  have awaited := develops.awaitsText awaits
  obtain ⟨namesText, free⟩ := Collect.namesText_of_awaitsText (oneWay path) awaited
  have known := develops.contains_table (Collect.textsWait_declaredState name awaited).2
  obtain ⟨entry, found⟩ := Option.isSome_iff_exists.mp known
  exact ⟨entry, found, develops.namesText namesText free entry found⟩

theorem not_literal_of_listed {reference : ImportReference}
    (listed : reference ∈ (graph.stateAt (.file path)).imports) :
    ¬ (graph.stateAt (.file path)).literals.contains reference.localName := by
  have develops := follows.develops_of_isOpen isOpen
  rw [develops.sameDeclarations.imports] at listed
  exact fun known =>
    Collect.not_literal_of_import (oneWay path) listed (develops.contains_literals known)

theorem not_literal_of_alias (isAlias : name ∈ (graph.stateAt (.file path)).valueAliases) :
    ¬ (graph.stateAt (.file path)).literals.contains name := by
  have same := (follows.develops_of_isOpen isOpen).sameDeclarations
  rw [same.valueAliases] at isAlias
  obtain ⟨reference, listed, rfl⟩ :=
    List.mem_map.mp (Collect.coherent_declaredState.aliasesImported name isAlias)
  exact not_literal_of_listed oneWay follows isOpen (same.imports ▸ listed)

theorem eq_of_localName {first second : ImportReference}
    (isFirst : first ∈ (graph.stateAt (.file path)).imports)
    (isSecond : second ∈ (graph.stateAt (.file path)).imports)
    (same : first.localName = second.localName) : first = second := by
  rw [(follows.develops_of_isOpen isOpen).sameDeclarations.imports] at isFirst isSecond
  exact List.inj_on_of_nodup_map (Collect.distinct_imports (oneWay path)) isFirst isSecond same

theorem ne_of_whole {other : String}
    (whole : ∀ entry, (graph.stateAt (.file path)).table.get? other = some entry →
      entry.isLiteral → (graph.stateAt (.file path)).compositions.contains other)
    (awaits : (graph.stateAt (.file path)).AwaitsText name) : name ≠ other := by
  rintro rfl
  obtain ⟨entry, found, isText⟩ := text_of_awaitsText oneWay follows isOpen awaits
  have owns := whole entry found isText
  exact (unwritten_of_owns oneWay follows isOpen owns).not_awaitsText awaits

end Kinds

/-! ## Alterations -/

theorem Firm.keeps (firm : project.Firm graph) {later : ModuleState}
    (alters : graph.Alters project.workspace False path later)
    (released : name ∉ (graph.stateAt (.file path)).pending) :
    name ∉ later.pending ∧
      later.table.get? name = (graph.stateAt (.file path)).table.get? name := by
  have rests := firm.rests path
  cases alters with
  | settled blocked =>
    have noLiteral := fun known => released (rests.literals name known)
    obtain ⟨sameEntry, samePending⟩ :=
      ModuleState.settleLiterals_of_not_contains noLiteral blocked
    exact ⟨fun waits => released (samePending.mp waits), sameEntry⟩
  | @imported reference handle entry listed means offers found =>
    refine ⟨fun waits => released (ModuleState.mem_pending_recordImported.mp waits).1, ?_⟩
    rw [ModuleState.get?_table_recordImported]
    split
    · rename_i isAlias
      obtain ⟨rfl, isAlias⟩ := isAlias
      -- The import has been recorded before, with the entry that is found again.
      obtain ⟨text, known, isText⟩ := rests.values _ isAlias released
      obtain ⟨target, entry', means', holds, rfl⟩ := rests.imports reference listed text known
      cases means.symm.trans means'
      cases holds.answers.symm.trans (holds_of_found offers found).answers
      exact isText.symm
    · rfl
  | composed owns innermost names isExternal =>
    refine ⟨released, (TokenTable.get?_compose ..).trans (if_neg ?_)⟩
    rintro rfl
    exact released (firm.owners path name (by rw [innermost]; simp) owns)
  | released => exact ⟨fun waits => released (ModuleState.mem_release.mp waits).1, rfl⟩

section Alterations

variable (oneWay : project.OneWay) (firm : project.Firm graph)
  (isOpen : graph.IsOpen (.file path))

include oneWay firm isOpen

theorem Firm.waits {later : ModuleState} {owner : String}
    (alters : graph.Alters project.workspace False path later)
    (held : (path, owner) ∈ graph.resolving)
    (owns : (graph.stateAt (.file path)).compositions.contains owner) :
    owner ∈ later.pending := by
  have waits := firm.owners path owner held owns
  have unwritten := unwritten_of_owns oneWay firm.toFollows isOpen owns
  cases alters with
  | settled blocked =>
    exact (ModuleState.settleLiterals_of_not_contains unwritten.noLiteral blocked).2.mpr waits
  | imported =>
    refine ModuleState.mem_pending_recordImported.mpr ⟨waits, ?_⟩
    rintro ⟨rfl, isAlias⟩
    exact unwritten.noAlias isAlias
  | composed => exact waits
  | released free =>
    refine ModuleState.mem_release.mpr ⟨waits, ?_⟩
    rintro rfl
    exact free held

theorem Firm.rests_settled (blocked : List String) :
    project.Rests graph path ((graph.stateAt (.file path)).settleLiterals blocked) := by
  have rests := firm.rests path
  have follows := firm.toFollows
  have develops := follows.develops_of_isOpen isOpen
  have same := ModuleState.sameDeclarations_settleLiterals (graph.stateAt (.file path)) blocked
  constructor
  · have distinct := develops.nodup_literals Collect.nodup_literals_declaredState
    exact fun name remains => ModuleState.waits_settleLiterals distinct remains
  · intro name isAlias released
    rw [same.valueAliases] at isAlias
    have noLiteral := not_literal_of_alias oneWay follows isOpen isAlias
    obtain ⟨sameEntry, samePending⟩ :=
      ModuleState.settleLiterals_of_not_contains noLiteral blocked
    rw [ModuleState.get?_symbols_settleLiterals noLiteral, sameEntry]
    exact rests.values name isAlias fun waits => released (samePending.mpr waits)
  · intro reference listed text known
    rw [same.imports] at listed
    have noLiteral := not_literal_of_listed oneWay follows isOpen listed
    rw [ModuleState.get?_symbols_settleLiterals noLiteral] at known
    exact rests.imports reference listed text known
  · intro reference listed names known
    rw [ModuleState.classAliases_settleLiterals] at known
    exact rests.aliases reference (same.imports ▸ listed) names known

/-- Recording an import gives it the text and the names of the entry that was found, and leaves the
other imports as they are. -/
theorem Firm.rests_imported {reference : ImportReference} {entry : TokenEntry}
    (listed : reference ∈ (graph.stateAt (.file path)).imports)
    (imported : project.Imported graph path reference (· = entry)) :
    project.Rests graph path
      ((graph.stateAt (.file path)).recordImported reference.localName entry) := by
  have rests := firm.rests path
  have follows := firm.toFollows
  have same := ModuleState.sameDeclarations_recordImported (graph.stateAt (.file path))
    reference.localName entry
  constructor
  · intro name known
    rw [ModuleState.literals_recordImported] at known
    refine ModuleState.mem_pending_recordImported.mpr ⟨rests.literals name known, ?_⟩
    rintro ⟨rfl, _⟩
    exact not_literal_of_listed oneWay follows isOpen listed known
  · intro name isAlias released
    rw [same.valueAliases] at isAlias
    rw [ModuleState.get?_symbols_recordImported, ModuleState.get?_table_recordImported]
    by_cases equal : name = reference.localName
    · subst equal
      exact ⟨entry.joined, by simp, by simp [isAlias]⟩
    · simp only [equal, false_and, ↓reduceIte]
      refine rests.values name isAlias fun waits => released ?_
      exact ModuleState.mem_pending_recordImported.mpr ⟨waits, fun isSame => equal isSame.1⟩
  · intro other isListed text known
    rw [same.imports] at isListed
    rw [ModuleState.get?_symbols_recordImported] at known
    split at known
    · rename_i equal
      obtain rfl := eq_of_localName oneWay follows isOpen isListed listed equal
      exact imported.weaken fun _ isEntry => isEntry ▸ Option.some.inj known
    · exact rests.imports other isListed text known
  · intro other isListed names known
    rw [same.imports] at isListed
    rcases ModuleState.get?_classAliases_recordImported known with earlier | ⟨equal, _, rfl⟩
    · exact rests.aliases other isListed names earlier
    · obtain rfl := eq_of_localName oneWay follows isOpen isListed listed equal
      exact imported.weaken fun _ isEntry => isEntry ▸ rfl

theorem Firm.rests_composed {owner : String}
    (owns : (graph.stateAt (.file path)).compositions.contains owner) (names : List String)
    (isExternal : Bool) :
    project.Rests graph path ((graph.stateAt (.file path)).compose owner names isExternal) := by
  have rests := firm.rests path
  refine ⟨rests.literals, ?_, rests.imports, rests.aliases⟩
  intro name isAlias released
  obtain ⟨text, known, isText⟩ := rests.values name isAlias released
  refine ⟨text, known, (TokenTable.get?_compose ..).trans ((if_neg ?_).trans isText)⟩
  rintro rfl
  exact (unwritten_of_owns oneWay firm.toFollows isOpen owns).noAlias isAlias

theorem Firm.rests_released {other : String}
    (whole : ∀ entry, (graph.stateAt (.file path)).table.get? other = some entry →
      entry.isLiteral → (graph.stateAt (.file path)).compositions.contains other) :
    project.Rests graph path ((graph.stateAt (.file path)).release other) := by
  have rests := firm.rests path
  refine ⟨?_, ?_, rests.imports, rests.aliases⟩
  · intro name known
    exact ModuleState.mem_release.mpr ⟨rests.literals name known,
      ne_of_whole oneWay firm.toFollows isOpen whole (.inl known)⟩
  · intro name isAlias released
    refine rests.values name isAlias fun waits => released ?_
    exact ModuleState.mem_release.mpr ⟨waits,
      ne_of_whole oneWay firm.toFollows isOpen whole (.inr isAlias)⟩

theorem Firm.rests_later {later : ModuleState}
    (alters : graph.Alters project.workspace False path later) :
    project.Rests graph path later := by
  cases alters with
  | settled blocked => exact firm.rests_settled oneWay isOpen blocked
  | imported listed means offers found =>
    exact firm.rests_imported oneWay isOpen listed
      ⟨_, _, means, holds_of_found offers found, rfl⟩
  | composed owns _ names isExternal =>
    exact firm.rests_composed oneWay isOpen owns names isExternal
  | released _ whole => exact firm.rests_released oneWay isOpen (whole.resolve_left id)

end Alterations

theorem rests_empty : project.Rests graph path .empty where
  literals _ known := by cases known
  values _ known := by cases known
  imports _ listed := by cases listed
  aliases _ listed := by cases listed

/-- What is collected from the text of a file: literals and imported values wait, and none of the
imports has been recorded. -/
theorem rests_collected (oneWay : project.OneWay) {source : String}
    (text : project.text path = source) {sheet : Stylesheet}
    (collects : (project.workspace.collection path source).1 = .ok sheet) :
    project.Rests graph path (project.workspace.collection path source).2.state := by
  rw [declared_of_text text collects]
  have same := ModuleState.sameDeclarations_settleLiterals (project.declared path)
    ((project.declared path).imports.map ImportReference.localName)
  constructor
  · exact fun name remains =>
      ModuleState.waits_settleLiterals Collect.nodup_literals_declaredState remains
  · intro name isAlias released
    rw [same.valueAliases] at isAlias
    obtain ⟨reference, listed, rfl⟩ :=
      List.mem_map.mp (Collect.coherent_declaredState.aliasesImported name isAlias)
    have noLiteral := Collect.not_literal_of_import (oneWay path) listed
    have waits := (Collect.textsWait_declaredState _ (.inr isAlias)).1
    exact absurd ((ModuleState.settleLiterals_of_not_contains noLiteral _).2.mpr waits) released
  · intro reference listed text known
    rw [same.imports] at listed
    have noLiteral : ¬ (project.declared path).literals.contains reference.localName :=
      Collect.not_literal_of_import (oneWay path) listed
    rw [ModuleState.get?_symbols_settleLiterals noLiteral, declared,
      Collect.symbols_declaredState] at known
    cases known
  · intro reference listed names known
    rw [ModuleState.classAliases_settleLiterals, declared,
      Collect.classAliases_declaredState] at known
    cases known

/-! ## Steps -/

theorem Firm.holds (firm : project.Firm graph)
    (step : graph.Step project.workspace False after) (holds : graph.Holds path name answer) :
    after.Holds path name answer := by
  have finished : (∃ compiled, graph.slots.get? (.file path) = some (.finished compiled)) →
      ∃ compiled, after.slots.get? (.file path) = some (.finished compiled) :=
    Exists.imp fun compiled found => Steps.finished (.single step) found
  obtain ⟨has, settled, answers⟩ := holds
  have has' := Steps.has (.single step) has
  rcases step.changes path with same | ⟨isOpen, alters⟩ | ⟨absent, _⟩
  · refine ⟨has', ?_, same ▸ answers⟩
    rw [IsSettled, same]
    exact settled.imp_right finished
  · have released : name ∉ (graph.stateAt (.file path)).pending := by
      rcases settled with released | ⟨compiled, isFinished⟩
      · exact released
      · obtain ⟨state, isState⟩ := isOpen
        cases isState.symm.trans isFinished
    obtain ⟨released, sameEntry⟩ := firm.keeps alters released
    refine ⟨has', .inl released, ?_⟩
    rw [TokenTable.lookup, sameEntry]
    exact answers
  · rw [Graph.has, OrderedMap.contains, absent] at has
    cases has

theorem Firm.step (oneWay : project.OneWay) (firm : project.Firm graph)
    (step : graph.Step project.workspace False after) : project.Firm after where
  toFollows := firm.toFollows.step firm.rooted step
  rooted := Steps.has (.single step) firm.rooted
  rests path := by
    refine Rests.mono (fun _ _ _ holds => firm.holds step holds) ?_
    rcases step.changes path with same | ⟨isOpen, alters⟩ | ⟨absent, source, readable, whole, new⟩
    · exact same ▸ firm.rests path
    · exact firm.rests_later oneWay isOpen alters
    · obtain ⟨sheet, collects⟩ := whole.resolve_left id
      rw [new]
      exact rests_collected oneWay (text_of_read (ne_root_of_absent firm.rooted absent) readable)
        collects
  entered path name member := by
    rcases step.resolving member with earlier | ⟨isOpen, _⟩
    · exact Steps.has (.single step) (firm.entered path name earlier)
    · exact Steps.has (.single step) (has_of_isOpen isOpen)
  owners path owner member owns := by
    rcases step.resolving member with earlier | ⟨_, waits, slots⟩
    · rcases step.changes path with same | ⟨isOpen, alters⟩ | ⟨absent, _⟩
      · rw [same] at owns ⊢
        exact firm.owners path owner earlier owns
      · rw [alters.develops.sameDeclarations.compositions] at owns
        exact firm.waits oneWay isOpen alters earlier owns
      · have has := firm.entered path owner earlier
        rw [Graph.has, OrderedMap.contains, absent] at has
        cases has
    · rw [stateAt_congr slots]
      exact waits
  complete path compiled found := by
    rcases step.closes found with earlier | complete
    · exact firm.complete path compiled earlier
    · exact complete
  answered path name answer member settled := by
    apply firm.holds step
    obtain ⟨added, events, reports⟩ := step.events
    rw [events] at member
    rcases List.mem_append.mp member with earlier | new
    · exact firm.answered path name answer earlier settled
    · cases (reports _ new rfl).2 with
      | answered isOpen => exact holds_of_lookup isOpen settled

theorem Firm.steps (oneWay : project.OneWay) (firm : project.Firm graph)
    (steps : graph.Steps project.workspace False after) : project.Firm after :=
  steps.keeps (fun step firm => firm.step oneWay step) firm

theorem firm_opened (oneWay : project.OneWay) {sheet : Stylesheet}
    (collects : (project.workspace.collection project.root project.source).1 = .ok sheet) :
    project.Firm project.opened where
  toFollows := follows_empty.opening (if_pos rfl) collects
  rooted := (has_opening ..).mpr (.inl rfl)
  rests path := by
    by_cases equal : path = project.root
    · subst equal
      rw [opened, stateAt_opening]
      exact rests_collected oneWay (if_pos rfl) collects
    · have absent : project.opened.stateAt (.file path) = .empty := by
        rw [opened, stateAt_of_same ((get?_opening ..).trans (if_neg (by simpa using equal)))]
        rfl
      exact absent ▸ rests_empty
  entered path name member := by
    rw [opened, resolving_opening] at member
    cases member
  owners path owner member := by
    rw [opened, resolving_opening] at member
    cases member
  complete path compiled found := by
    rw [opened, get?_opening] at found
    split at found <;> cases found
  answered path name answer member := by
    rw [opened, events_opening] at member
    simp [events, empty] at member

end Project

end ScopedStyles
