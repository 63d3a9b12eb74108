import ScopedStyles.Proofs.Composition.Soundness

/-!
Runs keep all entries sound: opening a file, resolving an owner of compositions, and closing a file.
-/

namespace ScopedStyles

open Compiling

namespace Project

variable {project : Project} {graph : Graph} {path : Path} {name : String}

/-! ## References -/

theorem Sound.means_of_reports (oneWay : project.OneWay) (sound : project.Sound graph)
    (isOpen : graph.IsOpen (.file path)) {reference : Reference} {names : List String}
    (reports : graph.Reports project.workspace (.file path) reference names) :
    project.Means graph.Exports path reference names := by
  rcases reference with ⟨name, source⟩
  have develops := sound.develops_of_isOpen isOpen
  cases source with
  | passThrough => exact reports
  | sameFile =>
    rcases reports with ⟨released, ⟨entry, found, isClass, rfl⟩ | ⟨absent, aliased⟩⟩
    · have namesClass := namesClass_of_entry oneWay develops found isClass
      have noImport : (project.declared path).importOf? name = none := by
        refine List.find?_eq_none.mpr fun reference member => ?_
        simpa using namesClass.noImport reference member
      refine ⟨(path, name), ?_, ⟨entry, found, isClass⟩, ?_⟩
      · simp [target?, noImport]
      · exact sound.settled path name entry found isClass (.inl released)
    · rcases sound.aliased path name names aliased with
        ⟨reference, member, rfl, target, isTarget, isPresent, derives⟩
      refine ⟨target, ?_, isPresent, derives⟩
      have found := ModuleState.importOf?_of_mem (Collect.distinct_imports (oneWay path)) member
      change (project.declared path).importOf? reference.localName = some reference at found
      simp [target?, found, isTarget]
  | file specifier =>
    rcases reports with ⟨handle, entry, means, offers, found, isClass, rfl⟩
    rcases Graph.entry_of_lookup offers found with ⟨isEntry, isSettled⟩
    refine ⟨(handle.path, name), ?_, ⟨entry, isEntry, isClass⟩, ?_⟩
    · exact imported?_of_resolve means
    · exact sound.settled _ _ _ isEntry isClass isSettled

/-- What a reference stands for, if for anything. -/
noncomputable def named (project : Project) (path : Path) (reference : Reference) : List String :=
  Classical.epsilon (project.Means (fun _ _ => True) path reference)

theorem Means.eq_named {present : Path → String → Prop} {reference : Reference}
    {names : List String} (means : project.Means present path reference names) :
    names = project.named path reference := by
  have derives := means.mono fun _ _ _ => trivial
  exact derives.unique (Classical.epsilon_spec ⟨names, derives⟩)

/-! ## Opening and closing a file -/

theorem Sound.opening (oneWay : project.OneWay) (sound : project.Sound graph)
    (absent : graph.slots.get? (.file path) = none) {source : String}
    (text : project.text path = source) {sheet : Stylesheet}
    (collects : (project.workspace.collection path source).1 = .ok sheet) :
    project.Sound (graph.opening project.workspace path source) := by
  have state := declared_of_text text collects
  have develops : (project.declared path).Develops (fun _ => False)
      (project.workspace.collection path source).2.state := by
    rw [state]
    exact .single (.settled _)
  have exports := sound.exports_later oneWay
    (Graph.Evolves.opening project.workspace source [] absent)
  have unwritten : ∀ name, (project.declared path).NamesClass name →
      (project.workspace.collection path source).2.state.table.get? name =
          (project.declared path).table.get? name ∧
        (name ∈ (project.workspace.collection path source).2.state.pending ↔
          name ∈ (project.declared path).pending) := by
    intro name namesClass
    rw [state]
    exact ModuleState.settleLiterals_of_not_contains namesClass.noLiteral _
  refine sound.replace (graph.get?_opening project.workspace path source)
    (graph.resolving_opening project.workspace path source) exports nofun develops ?_ ?_ ?_
  · rintro name entry found isClass (released | ⟨compiled, finished⟩)
    · have namesClass := namesClass_of_entry oneWay develops found isClass
      rcases unwritten name namesClass with ⟨sameEntry, sameWait⟩
      have found := sameEntry.symm.trans found
      rcases namesClass.plain entry found with ⟨kind, primary, _, rfl⟩
      have free : (project.declared path).compositionsOf name = [] := by
        refine List.eq_nil_iff_forall_not_mem.mpr fun composition member => ?_
        exact released (sameWait.mpr (Collect.coherent_declaredState.ownersWait name
          (ModuleState.contains_of_mem_compositionsOf member)))
      exact .plain found free
    · cases finished
  · intro name names found
    change (project.workspace.collection path source).2.state.classAliases.get? name = _ at found
    rw [state, ModuleState.classAliases_settleLiterals, declared,
      Collect.classAliases_declaredState] at found
    cases found
  · intro owner _ owns _
    exact (unwritten owner
      (Collect.namesClass_of_contains_compositions (oneWay path) owns).1).1

/-- A file whose owners of compositions are all resolved can be closed. -/
theorem Sound.closing (oneWay : project.OneWay) (sound : project.Sound graph)
    (isOpen : graph.IsOpen (.file path)) (sheet : Stylesheet)
    (released : ∀ owner, (graph.stateAt (.file path)).compositions.contains owner →
      owner ∉ (graph.stateAt (.file path)).pending) :
    project.Sound (graph.closing project.workspace path sheet) := by
  have develops := sound.develops_of_isOpen isOpen
  have closed := graph.get?_closing project.workspace path sheet
  have stateAt : ∀ site, (graph.closing project.workspace path sheet).stateAt site =
      graph.stateAt site := by
    intro site
    by_cases equal : site = .file path
    · subst equal
      exact Graph.stateAt_of_get? ((closed _).trans (if_pos rfl))
    · simp [Graph.stateAt, closed, equal]
  have exports := Graph.exports_congr stateAt
  refine sound.replace closed rfl (by simp [exports]) ?_ develops ?_ ?_ ?_
  · rintro compiled ⟨⟩
    rfl
  · intro name entry found isClass _
    rw [exports]
    refine sound.settled path name entry found isClass (.inl fun waits => ?_)
    rcases develops.waitsForCause Collect.coherent_declaredState.waitsForCause name waits with
      owns | known | aliased
    · exact released name owns waits
    · exact (develops.unwritten
        (namesClass_of_entry oneWay develops found isClass).toUnwritten).noLiteral known
    · exact (develops.unwritten
        (namesClass_of_entry oneWay develops found isClass).toUnwritten).noAlias aliased
  · rw [exports]
    exact sound.aliased path
  · exact sound.waiting path

/-! ## Resolving an owner -/

/-- The entry of an owner once these compositions have been added. -/
def Composed (project : Project) (path : Path) (owner : String) (done : List Composition)
    (graph : Graph) : Prop :=
  ∃ entry, (graph.stateAt (.file path)).table.get? owner = some entry ∧
    entry.names = union ((project.context path).scopedName owner) done (project.named path) ∧
    ∀ composition ∈ done, ∀ reference ∈ composition.references,
      project.Means graph.Exports path reference (project.named path reference)

/-- An owner that waits and is not being resolved has its own name only. -/
theorem Sound.composed_nil (oneWay : project.OneWay) (sound : project.Sound graph) {owner : String}
    (owns : (project.declared path).compositions.contains owner)
    (waits : owner ∈ (graph.stateAt (.file path)).pending)
    (free : (path, owner) ∉ graph.resolving) : project.Composed path owner [] graph := by
  rcases Collect.namesClass_of_contains_compositions (oneWay path) owns with ⟨_, declares⟩
  exact ⟨_, (sound.waiting path owner free owns waits).trans declares, rfl, nofun⟩

theorem Composed.congr {owner : String} {done : List Composition} {after : Graph}
    (composed : project.Composed path owner done graph) (slots : after.slots = graph.slots) :
    project.Composed path owner done after := by
  have sameState := Graph.stateAt_congr slots
  unfold Composed
  rw [sameState, Graph.exports_congr sameState]
  exact composed

/-- What references were found to stand for is what they stand for. -/
theorem map_named_of_reported {contract : Contract project.workspace} {before current : Graph}
    {references : List Reference} {parts : List (List String)} (oneWay : project.OneWay)
    (sound : ∀ {graph}, contract.keeps graph → project.Sound graph)
    (isOpen : before.IsOpen (.file path))
    (reported : Resolution.Reported contract before current (.file path) references parts) :
    parts = references.map (project.named path) ∧ ∀ reference ∈ references,
      project.Means current.Exports path reference (project.named path reference) := by
  induction reported with
  | nil => exact ⟨rfl, nofun⟩
  | cons first rest induction =>
    rcases first with ⟨seen, completes, keeps, reports, further⟩
    have means := (sound keeps).means_of_reports oneWay (completes.isOpen isOpen) reports
    rcases induction with ⟨same, others⟩
    refine ⟨by rw [List.map_cons, ← means.eq_named, same], fun reference member => ?_⟩
    rcases List.mem_cons.mp member with rfl | later
    · rw [← means.eq_named]
      exact means.mono ((sound keeps).exports_later oneWay further.toEvolves)
    · exact others reference later

/-- An owner that is being resolved waits, and its entry stays as it is, until it is left. -/
theorem Sound.kept_of_resolving (oneWay : project.OneWay) {before current : Graph} {owner : String}
    (sound : project.Sound before) (isOpen : before.IsOpen (.file path))
    (owns : (project.declared path).compositions.contains owner)
    (resolving : (path, owner) ∈ before.resolving)
    (waits : owner ∈ (before.stateAt (.file path)).pending)
    (completes : before.Completes project.workspace before.resolving current) :
    owner ∈ (current.stateAt (.file path)).pending ∧
      (current.stateAt (.file path)).table.get? owner =
        (before.stateAt (.file path)).table.get? owner := by
  have namesClass := (Collect.namesClass_of_contains_compositions (oneWay path) owns).1
  have unwritten := (sound.develops_of_isOpen isOpen).unwritten namesClass.toUnwritten
  have further := completes.develops isOpen
  exact ⟨further.mem_pending_of_kept unwritten resolving waits,
    further.get?_table_of_kept unwritten resolving⟩

theorem Sound.change_compose (sound : project.Sound graph) (isOpen : graph.IsOpen (.file path))
    {owner : String} (owns : (project.declared path).compositions.contains owner)
    (names : List String) (isExternal : Bool) :
    (graph.stateAt (.file path)).Change (fun _ => False)
      ((graph.stateAt (.file path)).compose owner names isExternal) := by
  apply ModuleState.Change.composed
  · rw [(sound.develops_of_isOpen isOpen).sameDeclarations.compositions]
    exact owns
  · exact id

/-- Composing into the entry of an owner that is being resolved and waits. -/
theorem Sound.setState_compose (oneWay : project.OneWay) (sound : project.Sound graph)
    (isOpen : graph.IsOpen (.file path)) {owner : String}
    (owns : (project.declared path).compositions.contains owner)
    (resolving : (path, owner) ∈ graph.resolving)
    (waits : owner ∈ (graph.stateAt (.file path)).pending) (names : List String)
    (isExternal : Bool) :
    project.Sound (graph.setState (.file path)
      ((graph.stateAt (.file path)).compose owner names isExternal)) := by
  have change := sound.change_compose isOpen owns names isExternal
  have exports := sound.exports_setState oneWay isOpen change
  have composed := fun other =>
    TokenTable.get?_compose (graph.stateAt (.file path)).table owner other names isExternal
  apply sound.setState oneWay isOpen change
  · intro name entry found isClass released
    have different : name ≠ owner := fun equal => released (equal ▸ waits)
    have found := ((composed name).trans (if_neg different)).symm.trans found
    exact (sound.settled path name entry found isClass (.inl released)).mono exports
  · intro name names found
    exact (sound.aliased path name names found).mono exports
  · intro other free owns waits
    have different : other ≠ owner := by
      rintro rfl
      exact free resolving
    exact ((composed other).trans (if_neg different)).trans
      (sound.waiting path other free owns waits)

/-- The names of one more composition are added to those of the earlier ones. -/
theorem Composed.concat {before current after : Graph} {owner : String}
    {done : List Composition} {composition : Composition} {isExternal : Bool}
    (composed : project.Composed path owner done before)
    (means : ∀ reference ∈ composition.references,
      project.Means current.Exports path reference (project.named path reference))
    (kept : (current.stateAt (.file path)).table.get? owner =
      (before.stateAt (.file path)).table.get? owner)
    (earlier : ∀ path name, before.Exports path name → current.Exports path name)
    (later : ∀ path name, current.Exports path name → after.Exports path name)
    (state : after.stateAt (.file path) = (current.stateAt (.file path)).compose owner
      (Resolution.mergeNames (composition.references.map (project.named path))) isExternal) :
    project.Composed path owner (done ++ [composition]) after := by
  rcases composed with ⟨entry, found, names, meansDone⟩
  rw [← kept] at found
  refine ⟨entry.add (Resolution.mergeNames (composition.references.map (project.named path)))
    isExternal, ?_, ?_, ?_⟩
  · rw [state]
    refine (TokenTable.get?_compose _ _ _ _ _).trans ?_
    rw [if_pos rfl, found, Option.getD_some]
  · rw [TokenEntry.names_add, names, union_concat, mergeNames_map]
  · intro other member reference referred
    rcases List.mem_append.mp member with isDone | isLast
    · exact (meansDone other isDone reference referred).mono fun path name present =>
        later path name (earlier path name present)
    · rw [List.mem_singleton.mp isLast] at referred
      exact (means reference referred).mono later

theorem Sound.compose (oneWay : project.OneWay) {before current : Graph} {owner : String}
    {done : List Composition} {composition : Composition} {parts : List (List String)}
    {contract : Contract project.workspace}
    (sound : ∀ {graph}, contract.keeps graph → project.Sound graph)
    (owns : (project.declared path).compositions.contains owner)
    (resolving : (path, owner) ∈ before.resolving) (isOpen : before.IsOpen (.file path))
    (keeps : contract.keeps before)
    (waits : owner ∈ (before.stateAt (.file path)).pending)
    (composed : project.Composed path owner done before)
    (completes : before.Completes project.workspace before.resolving current)
    (keepsCurrent : contract.keeps current)
    (reported : Resolution.Reported contract before current (.file path) composition.references
      parts) (isExternal : Bool) :
    let after := current.setState (.file path)
      ((current.stateAt (.file path)).compose owner (Resolution.mergeNames parts) isExternal)
    project.Sound after ∧ owner ∈ (after.stateAt (.file path)).pending ∧
      project.Composed path owner (done ++ [composition]) after := by
  have isOpenCurrent := completes.isOpen isOpen
  have soundCurrent := sound keepsCurrent
  rcases (sound keeps).kept_of_resolving oneWay isOpen owns resolving waits completes with
    ⟨waitsCurrent, kept⟩
  rcases map_named_of_reported oneWay sound isOpen reported with ⟨rfl, means⟩
  have change := soundCurrent.change_compose isOpenCurrent owns
    (Resolution.mergeNames (composition.references.map (project.named path))) isExternal
  refine ⟨?_, ?_, ?_⟩
  · rw [← completes.resolving] at resolving
    exact soundCurrent.setState_compose oneWay isOpenCurrent owns resolving waitsCurrent _ _
  · rw [Graph.stateAt_setState]
    exact waitsCurrent
  · exact composed.concat means kept ((sound keeps).exports_later oneWay completes.toEvolves)
      (soundCurrent.exports_setState oneWay isOpenCurrent change) (Graph.stateAt_setState ..)

/-- An owner is released when all its compositions have been added. -/
theorem Sound.release (oneWay : project.OneWay) (sound : project.Sound graph)
    (isOpen : graph.IsOpen (.file path)) {owner : String}
    (composed : (project.declared path).compositions.contains owner →
      project.Composed path owner ((project.declared path).compositionsOf owner) graph) :
    project.Sound
      (graph.setState (.file path) ((graph.stateAt (.file path)).release owner)) := by
  have develops := sound.develops_of_isOpen isOpen
  have change : (graph.stateAt (.file path)).Change (fun _ => False)
      ((graph.stateAt (.file path)).release owner) := .released id
  have exports := sound.exports_setState oneWay isOpen change
  apply sound.setState oneWay isOpen change
  · intro name entry found isClass released
    apply Names.mono exports
    by_cases waits : name ∈ (graph.stateAt (.file path)).pending
    · have equal : name = owner := by
        by_contra different
        exact released (ModuleState.mem_release.mpr ⟨waits, different⟩)
      subst equal
      have unwritten :=
        develops.unwritten (namesClass_of_entry oneWay develops found isClass).toUnwritten
      rcases develops.waitsForCause Collect.coherent_declaredState.waitsForCause name waits with
        owns | known | aliased
      · rw [develops.sameDeclarations.compositions] at owns
        rcases composed owns with ⟨other, isEntry, names, means⟩
        cases isEntry.symm.trans found
        rcases Collect.namesClass_of_contains_compositions (oneWay path) owns with ⟨_, declares⟩
        rw [names]
        exact .of_means declares means
      · exact absurd known unwritten.noLiteral
      · exact absurd aliased unwritten.noAlias
    · exact sound.settled path name entry found isClass (.inl waits)
  · intro name names found
    exact (sound.aliased path name names found).mono exports
  · intro other free owns waits
    exact sound.waiting path other free owns (ModuleState.mem_release.mp waits).1

theorem Sound.leave {outer : List (Path × String)} (sound : project.Sound graph)
    (resolving : graph.resolving = outer ++ [(path, name)])
    (released : name ∉ (graph.stateAt (.file path)).pending) : project.Sound graph.leave := by
  refine sound.congr rfl fun other owner held free => ?_
  change (other, owner) ∉ graph.resolving.dropLast at free
  rw [resolving, List.dropLast_concat] at free
  rw [resolving] at held
  rcases List.mem_append.mp held with earlier | last
  · exact absurd earlier free
  · cases List.mem_singleton.mp last
    exact released

/-! ## Runs -/

def soundness (project : Project) (oneWay : project.OneWay) : Contract project.workspace where
  keeps graph := project.Sound graph ∧ graph.has project.root
  mayLoad _ _ _ := True
  mayResolve _ _ _ := True
  blames _ := True
  recorded event := fun ⟨sound, rooted⟩ =>
    ⟨sound.congr rfl fun _ _ held free => absurd held free, rooted⟩
  filed keeps found := keeps.1.site_of_finished found
  settled := by
    rintro graph site blocked isOpen ⟨sound, rooted⟩
    rcases sound.file_of_isOpen isOpen with ⟨path, rfl⟩
    exact ⟨sound.settleLiterals oneWay isOpen blocked, graph.has_setState rooted⟩
  imported := by
    rintro graph site reference handle entry isOpen listed means offers found ⟨sound, rooted⟩
    rcases sound.file_of_isOpen isOpen with ⟨path, rfl⟩
    refine ⟨sound.recordImported oneWay isOpen listed entry fun isClass => ?_,
      graph.has_setState rooted⟩
    rcases Graph.entry_of_lookup offers found with ⟨isEntry, isSettled⟩
    exact ⟨_, imported?_of_resolve means, ⟨entry, isEntry, isClass⟩,
      sound.settled _ _ _ isEntry isClass isSettled⟩
  loadable _ _ := trivial
  resolvable _ _ := trivial
  plain _ _ := trivial
  unsettled _ _ _ _ _ := trivial
  unimported _ _ _ _ := trivial

theorem advances_resolveOwner (oneWay : project.OneWay) {calls : Calls}
    (meets : calls.Meet (project.soundness oneWay)) {site : Site} {owner : String}
    (keeps : (project.soundness oneWay).keeps graph) (isOpen : graph.IsOpen site) :
    Advances (project.soundness oneWay) graph.resolving graph
      (Resolution.resolveOwner calls site owner) fun _ after =>
        owner ∉ (after.stateAt site).pending := by
  rcases keeps.1.file_of_isOpen isOpen with ⟨path, rfl⟩
  have develops := keeps.1.develops_of_isOpen isOpen
  have sameCompositions := keeps.1.compositionsOf isOpen owner
  have contains : ∀ composition ∈ (graph.stateAt (.file path)).compositionsOf owner,
      (project.declared path).compositions.contains owner := by
    intro composition member
    rw [sameCompositions] at member
    exact ModuleState.contains_of_mem_compositionsOf member
  -- While its compositions are added the owner waits, and its entry is the union of those done.
  refine Resolution.advances_resolveOwner meets keeps isOpen (fun _ => id)
    (fun done current => (project.declared path).compositions.contains owner →
      owner ∈ (current.stateAt (.file path)).pending ∧ project.Composed path owner done current)
    (fun _ _ _ => trivial) ?_ ?_ ?_
  · intro entered waits enter
    rcases Graph.enter_eq_ok enter with ⟨free, resolving, slots⟩
    refine ⟨⟨keeps.1.congr slots ?_, ?_⟩, ?_, fun _ _ _ _ => ?_⟩
    · intro other name held free
      rw [resolving] at free
      exact absurd (List.mem_append_left _ held) free
    · simpa only [Graph.has, slots] using keeps.2
    · intro owns
      refine ⟨?_, (keeps.1.composed_nil oneWay owns waits free).congr slots⟩
      rw [Graph.stateAt_congr slots]
      exact waits
    · exact Contract.mayRefer_of_all (fun _ _ => trivial) fun _ _ => trivial
  · intro before done composition rest current parts isExternal equal resolving isOpenBefore
      keepsBefore holds completes keepsCurrent reported
    have owns := contains composition (by simp [equal])
    rcases holds owns with ⟨waits, composed⟩
    rcases Sound.compose oneWay And.left owns
        (by simp [resolving, Site.path])
        isOpenBefore keepsBefore waits composed completes keepsCurrent reported isExternal with
      ⟨sound, waits, composed⟩
    exact ⟨⟨sound, Graph.has_setState _ keepsCurrent.2⟩, fun _ => ⟨waits, composed⟩⟩
  · intro after resolving isOpenAfter keepsAfter holds
    rw [sameCompositions] at holds
    have released := keepsAfter.1.release oneWay isOpenAfter fun owns => (holds owns).2
    refine ⟨released.leave resolving ?_, ?_⟩
    · change owner ∉ (Graph.stateAt (Graph.setState _ (.file path) _) (.file path)).pending
      rw [Graph.stateAt_setState, ModuleState.mem_release]
      exact fun waits => waits.2 rfl
    · exact Graph.has_setState _ keepsAfter.2

theorem mayStart_soundness (oneWay : project.OneWay) {source : String}
    (sound : project.Sound (graph.opening project.workspace path source))
    (rooted : (graph.opening project.workspace path source).has project.root) :
    (project.soundness oneWay).MayStart (graph.opening project.workspace path source) path
      source where
  keeps := ⟨sound, rooted⟩
  mayImport _ _ := Contract.mayTake_of_all trivial fun _ _ => trivial
  mayOwn _ _ := trivial

theorem opens_soundness (oneWay : project.OneWay) :
    (project.soundness oneWay).Opens (project.soundness oneWay) where
  excuses _ := id
  opened {graph specifier importer path source} keeps _ _ absent readable sheet collects := by
    have different := ne_root_of_absent keeps.2 absent
    exact mayStart_soundness oneWay
      (keeps.1.opening oneWay absent (text_of_read different readable) collects)
      ((Graph.has_opening ..).mpr (.inr keeps.2))
  closed {graph path source sheet} keeps isOpen _ _ _ released := by
    exact ⟨keeps.1.closing oneWay isOpen sheet released,
      (Graph.has_closing ..).mpr (.inr keeps.2)⟩

theorem meets_soundness (oneWay : project.OneWay) (depth : Nat) :
    (Compilation.calls project.workspace depth).Meet (project.soundness oneWay) := by
  refine Compilation.calls_meet (fun _ => project.soundness oneWay)
    (Compilation.exhausted_meets trivial) (fun _ => opens_soundness oneWay) ?_ depth
  intro _ calls meets graph site owner keeps isOpen _
  exact advances_resolveOwner oneWay meets keeps isOpen

theorem sound_empty : project.Sound .empty where
  toFollows := follows_empty
  settled _ _ _ found := by cases found
  aliased _ _ _ found := by cases found
  waiting _ _ _ _ waits := by cases waits

theorem sound_run (oneWay : project.OneWay) {file : ProcessedFile}
    (succeeds : project.run.outcome = .ok file) :
    project.Sound project.run.graph ∧ ∃ resolved sheet,
      Processing.Ends project.workspace project.root project.source resolved sheet := by
  have text : project.text project.root = project.source := if_pos rfl
  rcases Processing.ends_or_blames (meets_soundness oneWay) fun sheet collects =>
      mayStart_soundness oneWay (sound_empty.opening oneWay rfl text collects)
        ((Graph.has_opening ..).mpr (.inl rfl)) with
    ⟨resolved, sheet, ends, sound, _⟩ | ⟨halt, fails, _⟩
  · refine ⟨?_, resolved, sheet, ends⟩
    rw [run, ends.graph]
    exact sound.closing oneWay (ends.completes.isOpen (Graph.isOpen_opening ..)) sheet ends.released
  · rw [run, fails] at succeeds
    cases succeeds

end Project

end ScopedStyles
