import ScopedStyles.Proofs.Composition.Following
import ScopedStyles.Proofs.Composition.Merging

/-!
Every settled entry of every file has the names that its class stands for. This is kept by each
step of a compilation: an owner of compositions waits from the time it is declared until all its
compositions have been added, and while they are added no nested request touches its entry.
-/

namespace ScopedStyles

open Compiling

namespace Graph

/-- The table of a file has an entry for a class. -/
def Exports (graph : Graph) (path : Path) (name : String) : Prop :=
  ∃ entry, (graph.stateAt (.file path)).table.get? name = some entry ∧ entry.isLiteral = false

theorem exports_congr {graph after : Graph}
    (sameState : ∀ site, after.stateAt site = graph.stateAt site) :
    after.Exports = graph.Exports := by
  funext path name
  simp only [Exports, sameState]

def IsSettled (graph : Graph) (path : Path) (name : String) : Prop :=
  name ∉ (graph.stateAt (.file path)).pending ∨
    ∃ compiled, graph.slots.get? (.file path) = some (.finished compiled)

theorem slot_of_entry {graph : Graph} {site : Site} {name : String} {entry : TokenEntry}
    (found : (graph.stateAt site).table.get? name = some entry) :
    ∃ slot, graph.slots.get? site = some slot ∧ graph.stateAt site = slot.state := by
  cases slotFound : graph.slots.get? site with
  | none =>
    rw [stateAt, slotFound] at found
    cases found
  | some slot => exact ⟨slot, rfl, stateAt_of_get? slotFound⟩

theorem entry_of_lookup {graph : Graph} {handle : Handle} {name : String} {entry : TokenEntry}
    (offers : graph.Offers handle) (found : graph.lookup handle name = .found entry) :
    (graph.stateAt (.file handle.path)).table.get? name = some entry ∧
      graph.IsSettled handle.path name := by
  cases handle with
  | inFlight path =>
    change (graph.stateAt (.file path)).lookup name = .found entry at found
    unfold ModuleState.lookup at found
    split at found
    · rename_i isSettled
      unfold TokenTable.lookup at found
      split at found
      · rename_i other isEntry
        cases found
        have released : name ∉ (graph.stateAt (.file path)).pending := by
          simpa [ModuleState.isSettled] using isSettled
        exact ⟨isEntry, .inl released⟩
      · cases found
    · cases found
  | ready compiled =>
    change compiled.table.lookup name = .found entry at found
    have offers : graph.slots.get? (.file compiled.path) = some (.finished compiled) := offers
    unfold TokenTable.lookup at found
    split at found
    · rename_i other isEntry
      cases found
      refine ⟨?_, .inr ⟨compiled, offers⟩⟩
      change (graph.stateAt (.file compiled.path)).table.get? name = some entry
      rw [Graph.stateAt_of_get? offers]
      exact isEntry
    · cases found

end Graph

namespace Project

variable {project : Project} {graph : Graph} {path : Path} {name : String} {entry : TokenEntry}

/-- The alias of an import stands for these names. -/
def Imports (project : Project) (present : Path → String → Prop) (path : Path) (alias_ : String)
    (names : List String) : Prop :=
  ∃ reference ∈ (project.declared path).imports, reference.localName = alias_ ∧
    ∃ target, project.imported? path reference.specifier reference.imported = some target ∧
      present target.1 target.2 ∧ project.Names present target.1 target.2 names

/-- What holds of the files of a project between any two steps. -/
structure Sound (project : Project) (graph : Graph) : Prop extends Follows project graph where
  settled : ∀ path name entry, (graph.stateAt (.file path)).table.get? name = some entry →
    entry.isLiteral = false → graph.IsSettled path name →
    project.Names graph.Exports path name entry.names
  aliased : ∀ path name names, (graph.stateAt (.file path)).classAliases.get? name = some names →
    project.Imports graph.Exports path name names
  waiting : ∀ path owner, (path, owner) ∉ graph.resolving →
    (project.declared path).compositions.contains owner →
    owner ∈ (graph.stateAt (.file path)).pending →
    (graph.stateAt (.file path)).table.get? owner = (project.declared path).table.get? owner

theorem Imports.mono {present more : Path → String → Prop} {names : List String}
    (less : ∀ path name, present path name → more path name)
    (imports : project.Imports present path name names) : project.Imports more path name names := by
  rcases imports with ⟨reference, member, isAlias, target, isTarget, isPresent, derives⟩
  exact ⟨reference, member, isAlias, target, isTarget, less _ _ isPresent, derives.mono less⟩

theorem Sound.congr {after : Graph} (sound : project.Sound graph)
    (slots : after.slots = graph.slots)
    (resolving : ∀ path name, (path, name) ∈ graph.resolving → (path, name) ∉ after.resolving →
      name ∉ (graph.stateAt (.file path)).pending) :
    project.Sound after := by
  have sameState := Graph.stateAt_congr slots
  have sameExports := Graph.exports_congr sameState
  constructor
  · exact sound.toFollows.congr slots
  · intro path name entry found isClass settled
    rw [sameExports]
    rw [sameState] at found
    simp only [Graph.IsSettled, sameState, slots] at settled
    exact sound.settled path name entry found isClass settled
  · intro path name names found
    rw [sameExports]
    rw [sameState] at found
    exact sound.aliased path name names found
  · intro path owner free owns waits
    rw [sameState] at waits ⊢
    exact sound.waiting path owner (fun held => resolving path owner held free waits) owns waits

/-! ## Classes of a file -/

theorem namesClass_of_entry (oneWay : project.OneWay) {kept : String → Prop} {state : ModuleState}
    (develops : (project.declared path).Develops kept state)
    (found : state.table.get? name = some entry) (isClass : entry.isLiteral = false) :
    (project.declared path).NamesClass name := by
  rcases Collect.namesClass_or_namesText (oneWay path) name with namesClass | namesText
  · exact namesClass
  by_cases owns : (project.declared path).compositions.contains name
  · exact (Collect.namesClass_of_contains_compositions (oneWay path) owns).1
  · have isText := develops.namesText namesText owns entry found
    rw [isClass] at isText
    cases isText

variable (oneWay : project.OneWay)

include oneWay

theorem Sound.exports_later {held : List (Path × String)} {after : Graph}
    (sound : project.Sound graph) (evolves : graph.Evolves held after) (path : Path)
    (name : String) (exports : graph.Exports path name) : after.Exports path name := by
  rcases exports with ⟨entry, found, isClass⟩
  rcases Graph.slot_of_entry found with ⟨slot, isSlot, isState⟩
  rw [isState] at found
  cases slot with
  | finished compiled =>
    exact ⟨entry, by rw [Graph.stateAt_of_get? (evolves.finished _ _ isSlot)]; exact found, isClass⟩
  | inFlight state =>
    rcases sound.filed _ _ isSlot with ⟨_, equal, _, develops⟩
    cases equal
    have unwritten :=
      develops.unwritten (namesClass_of_entry oneWay develops found isClass).toUnwritten
    rcases evolves.opened _ _ isSlot with ⟨later, isLater, further⟩
    rcases further.hasOwn unwritten ⟨entry, found, rfl, rfl⟩ with ⟨entry', found', _, sameKind⟩
    refine ⟨entry', by rw [Graph.stateAt_of_get? isLater]; exact found', ?_⟩
    rw [TokenEntry.isLiteral, sameKind]
    exact isClass

/-! ## Single changes -/

omit oneWay in
theorem Sound.replace {after : Graph} {slot : Slot} (sound : project.Sound graph)
    (slots : ∀ site, after.slots.get? site =
      if site = .file path then some slot else graph.slots.get? site)
    (resolving : after.resolving = graph.resolving)
    (exports : ∀ path name, graph.Exports path name → after.Exports path name)
    (filed : ∀ compiled, slot = .finished compiled → compiled.path = path)
    (develops : (project.declared path).Develops (fun _ => False) slot.state)
    (settled : ∀ name entry, slot.state.table.get? name = some entry → entry.isLiteral = false →
      name ∉ slot.state.pending ∨ (∃ compiled, slot = .finished compiled) →
      project.Names after.Exports path name entry.names)
    (aliased : ∀ name names, slot.state.classAliases.get? name = some names →
      project.Imports after.Exports path name names)
    (waiting : ∀ owner, (path, owner) ∉ graph.resolving →
      (project.declared path).compositions.contains owner → owner ∈ slot.state.pending →
      slot.state.table.get? owner = (project.declared path).table.get? owner) :
    project.Sound after := by
  have isSlot : after.slots.get? (.file path) = some slot := (slots _).trans (if_pos rfl)
  have stateAt := Graph.stateAt_of_get? isSlot
  have otherSlot : ∀ other, other ≠ path →
      after.slots.get? (.file other) = graph.slots.get? (.file other) := fun other different =>
    (slots _).trans (if_neg (by simpa using different))
  have otherState : ∀ other, other ≠ path →
      after.stateAt (.file other) = graph.stateAt (.file other) := fun other different => by
    simp only [Graph.stateAt, otherSlot other different]
  constructor
  · exact sound.toFollows.replace slots filed develops
  · intro other name entry found isClass isSettled
    by_cases equal : other = path
    · subst equal
      rw [stateAt] at found
      apply settled name entry found isClass
      rcases isSettled with released | ⟨compiled, finished⟩
      · exact .inl (stateAt ▸ released)
      · exact .inr ⟨compiled, Option.some.inj (isSlot.symm.trans finished)⟩
    · rw [otherState other equal] at found
      refine (sound.settled other name entry found isClass ?_).mono exports
      rcases isSettled with released | ⟨compiled, finished⟩
      · exact .inl (otherState other equal ▸ released)
      · exact .inr ⟨compiled, (otherSlot other equal).symm.trans finished⟩
  · intro other name names found
    by_cases equal : other = path
    · subst equal
      rw [stateAt] at found
      exact aliased name names found
    · rw [otherState other equal] at found
      exact (sound.aliased other name names found).mono exports
  · intro other owner free owns waits
    rw [resolving] at free
    by_cases equal : other = path
    · subst equal
      rw [stateAt] at waits ⊢
      exact waiting owner free owns waits
    · rw [otherState other equal] at waits ⊢
      exact sound.waiting other owner free owns waits

theorem Sound.exports_setState {kept : String → Prop} {later : ModuleState}
    (sound : project.Sound graph) (isOpen : graph.IsOpen (.file path))
    (change : (graph.stateAt (.file path)).Change kept later) (other : Path) (name : String)
    (exports : graph.Exports other name) :
    (graph.setState (.file path) later).Exports other name := by
  have completes := Graph.Completes.setState project.workspace [] isOpen
    (change.mono fun _ => by simp)
  exact sound.exports_later oneWay completes.toEvolves other name exports

theorem Sound.setState {kept : String → Prop} {later : ModuleState} (sound : project.Sound graph)
    (isOpen : graph.IsOpen (.file path))
    (change : (graph.stateAt (.file path)).Change kept later)
    (settled : ∀ name entry, later.table.get? name = some entry → entry.isLiteral = false →
      name ∉ later.pending →
      project.Names (graph.setState (.file path) later).Exports path name entry.names)
    (aliased : ∀ name names, later.classAliases.get? name = some names →
      project.Imports (graph.setState (.file path) later).Exports path name names)
    (waiting : ∀ owner, (path, owner) ∉ graph.resolving →
      (project.declared path).compositions.contains owner → owner ∈ later.pending →
      later.table.get? owner = (project.declared path).table.get? owner) :
    project.Sound (graph.setState (.file path) later) := by
  have develops := sound.develops_of_isOpen isOpen
  refine sound.replace (graph.get?_setState (.file path) · later) rfl
    (sound.exports_setState oneWay isOpen change) nofun
    (develops.tail (change.mono fun _ => False.elim)) ?_ aliased waiting
  rintro name entry found isClass (released | ⟨compiled, finished⟩)
  · exact settled name entry found isClass released
  · cases finished

theorem Sound.settleLiterals (sound : project.Sound graph) (isOpen : graph.IsOpen (.file path))
    (blocked : List String) :
    project.Sound
      (graph.setState (.file path) ((graph.stateAt (.file path)).settleLiterals blocked)) := by
  have develops := sound.develops_of_isOpen isOpen
  have change : (graph.stateAt (.file path)).Change (fun _ => False) _ := .settled blocked
  have exports := sound.exports_setState oneWay isOpen change
  apply sound.setState oneWay isOpen change
  · intro name entry found isClass released
    have namesClass := namesClass_of_entry oneWay (develops.tail change) found isClass
    rcases ModuleState.settleLiterals_of_not_contains
        (develops.unwritten namesClass.toUnwritten).noLiteral blocked with
      ⟨sameEntry, sameWait⟩
    rw [sameEntry] at found
    rw [sameWait] at released
    exact (sound.settled path name entry found isClass (.inl released)).mono exports
  · intro name names found
    rw [ModuleState.classAliases_settleLiterals] at found
    exact (sound.aliased path name names found).mono exports
  · intro owner free owns waits
    have namesClass := (Collect.namesClass_of_contains_compositions (oneWay path) owns).1
    rcases ModuleState.settleLiterals_of_not_contains
        (develops.unwritten namesClass.toUnwritten).noLiteral blocked with
      ⟨sameEntry, sameWait⟩
    rw [sameEntry]
    exact sound.waiting path owner free owns (sameWait.mp waits)

theorem Sound.recordImported (sound : project.Sound graph) (isOpen : graph.IsOpen (.file path))
    {reference : ImportReference} (listed : reference ∈ (graph.stateAt (.file path)).imports)
    (entry : TokenEntry)
    (derives : entry.isLiteral = false → ∃ target,
      project.imported? path reference.specifier reference.imported = some target ∧
        graph.Exports target.1 target.2 ∧
        project.Names graph.Exports target.1 target.2 entry.names) :
    project.Sound (graph.setState (.file path)
      ((graph.stateAt (.file path)).recordImported reference.localName entry)) := by
  have develops := sound.develops_of_isOpen isOpen
  have change : (graph.stateAt (.file path)).Change (fun _ => False) _ := .imported listed entry
  have exports := sound.exports_setState oneWay isOpen change
  have unaliased : ∀ name, (project.declared path).NamesClass name →
      ¬ (name = reference.localName ∧
        reference.localName ∈ (graph.stateAt (.file path)).valueAliases) := by
    rintro name namesClass ⟨rfl, isAlias⟩
    exact (develops.unwritten namesClass.toUnwritten).noAlias isAlias
  apply sound.setState oneWay isOpen change
  · intro name entry' found isClass released
    have namesClass := namesClass_of_entry oneWay (develops.tail change) found isClass
    rw [ModuleState.get?_table_recordImported, if_neg (unaliased name namesClass)] at found
    refine (sound.settled path name entry' found isClass (.inl fun waits => ?_)).mono exports
    exact released (ModuleState.mem_pending_recordImported.mpr
      ⟨waits, unaliased name namesClass⟩)
  · intro name names found
    rcases ModuleState.get?_classAliases_recordImported found with earlier | ⟨rfl, isClass, rfl⟩
    · exact (sound.aliased path name names earlier).mono exports
    · rcases derives isClass with ⟨target, isTarget, isPresent, derives⟩
      rw [develops.sameDeclarations.imports] at listed
      exact ⟨reference, listed, rfl, target, isTarget, exports _ _ isPresent, derives.mono exports⟩
  · intro owner free owns waits
    have namesClass := (Collect.namesClass_of_contains_compositions (oneWay path) owns).1
    rw [ModuleState.get?_table_recordImported, if_neg (unaliased owner namesClass)]
    exact sound.waiting path owner free owns (ModuleState.mem_pending_recordImported.mp waits).1

end Project

end ScopedStyles
