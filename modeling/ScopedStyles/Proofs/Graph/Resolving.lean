import ScopedStyles.Proofs.Graph.Contract

/-!
The steps of resolution under a contract: what an import, a reference, a composition, an owner of
compositions and a whole file come to, given what the requests that they make come to.
-/

namespace ScopedStyles

open Compiling ScopedStyles.Graph

namespace Resolution

variable {workspace : Workspace} {contract : Contract workspace} {calls : Calls} {graph : Graph}
  {site : Site}

theorem advances_ask (held : List (Path × String)) (handle : Handle) (name : String)
    (keeps : contract.keeps graph) :
    Advances contract held graph (ask handle name) fun answer after =>
      answer = graph.lookup handle name ∧ after.slots = graph.slots := by
  refine .get ?_
  dsimp only
  split
  · exact .pure keeps ⟨rfl, rfl⟩
  · exact .bind (.note keeps (.pure (contract.recorded _ keeps) ⟨rfl, rfl⟩))

theorem lookup_congr {before after : Graph} (same : after.slots = before.slots) (handle : Handle)
    (name : String) : after.lookup handle name = before.lookup handle name := by
  cases handle with
  | inFlight path => rw [Graph.lookup, Graph.stateAt_congr same, Graph.lookup]
  | ready compiled => rfl

theorem offers_congr {before after : Graph} (same : after.slots = before.slots) {handle : Handle}
    (offers : before.Offers handle) : after.Offers handle := by
  cases handle with
  | inFlight path => simpa only [Graph.Offers, Graph.IsOpen, same] using offers
  | ready compiled => simpa only [Graph.Offers, same] using offers

/-- A name of an open file is settled on demand, or the file has settled what it could. -/
theorem advances_settleInFlight (meets : calls.Meet contract) {path : Path} {name : String}
    (keeps : contract.keeps graph) (isOpen : graph.IsOpen (.file path))
    (may : contract.mayResolve graph (.file path) name) :
    Advances contract graph.resolving graph (settleInFlight calls path name) fun _ after =>
      name ∉ (after.stateAt (.file path)).pending ∨
        ∀ failure, contract.blames (.failed failure) := by
  refine .stateAt ?_
  split
  · apply (meets.resolveOwner graph (.file path) name keeps isOpen may).weaken
    exact fun _ _ _ _ settled => .inl settled
  · rename_i free
    refine .update isOpen (.settled _) (contract.settled _ isOpen keeps) ?_
    rw [stateAt_setState]
    by_cases waits : name ∈ ((graph.stateAt (.file path)).settleLiterals
      (graph.stateAt (.file path)).openAliases).pending
    · exact .inr (contract.unsettled keeps isOpen free waits)
    · exact .inl waits

theorem lookup_ne_unsettled {handle : Handle} {name : String}
    (settled : ∀ path, handle = .inFlight path → name ∉ (graph.stateAt (.file path)).pending) :
    graph.lookup handle name ≠ .unsettled := by
  cases handle with
  | inFlight path =>
    have isSettled : (graph.stateAt (.file path)).isSettled name := by
      simpa [ModuleState.isSettled] using settled path rfl
    simp only [Graph.lookup, ModuleState.lookup, isSettled, ↓reduceIte, TokenTable.lookup]
    split <;> simp
  | ready compiled =>
    simp only [Graph.lookup, TokenTable.lookup]
    split <;> simp

theorem advances_lookUp (meets : calls.Meet contract) {handle : Handle}
    {name requester specifier : String} {location : Location} (keeps : contract.keeps graph)
    (offers : graph.Offers handle) (may : contract.mayResolve graph (.file handle.path) name) :
    Advances contract graph.resolving graph
      (lookUp calls site handle name requester specifier location) fun entry after =>
        after.Offers handle ∧ after.lookup handle name = .found entry := by
  refine .bind ((advances_ask _ handle name keeps).weaken ?_)
  rintro answer asked completes keeps ⟨answers, slots⟩
  dsimp only
  split
  · rename_i unsettled
    cases handle with
    | ready compiled =>
      refine absurd (answers.symm.trans unsettled) (lookup_ne_unsettled ?_)
      intro path equal
      cases equal
    | inFlight path =>
      have isOpen : asked.IsOpen (.file path) := completes.isOpen offers
      rw [← completes.resolving]
      refine .bind ((advances_settleInFlight meets keeps isOpen
        (Contract.mayResolve_later completes may)).weaken ?_)
      rintro _ settled further keeps isSettled
      refine .bind ((advances_ask _ (.inFlight path) name keeps).weaken ?_)
      rintro answer last _ keeps ⟨answers, slots⟩
      have known := answers
      rw [← lookup_congr slots] at known
      have offers : last.Offers (.inFlight path) := offers_congr slots (further.isOpen isOpen)
      cases answer with
      | found entry => exact .pure keeps ⟨offers, known.symm⟩
      | missing => exact .fail (contract.plain _ (by simp [Cause.kind]))
      | unsettled =>
        rcases isSettled with isSettled | blames
        · refine absurd answers.symm (lookup_ne_unsettled ?_)
          rintro _ ⟨⟩
          exact isSettled
        · exact .fail (blames _)
  · rename_i settled
    rw [← lookup_congr slots] at answers
    cases answer with
    | found entry => exact .pure keeps ⟨offers_congr slots offers, answers.symm⟩
    | missing => exact .fail (contract.plain _ (by simp [Cause.kind]))
    | unsettled => exact absurd rfl settled

theorem advances_localNames (meets : calls.Meet contract) {name : String} {location : Location}
    (keeps : contract.keeps graph) (isOpen : graph.IsOpen site)
    (may : contract.mayResolve graph site name) :
    Advances contract graph.resolving graph (localNames calls site name location)
      fun names after => after.Reports workspace site ⟨name, .sameFile⟩ names.1 := by
  refine .bind ((meets.resolveOwner graph site name keeps isOpen may).weaken ?_)
  intro _ settled completes keeps released
  refine .stateAt ?_
  split
  · rename_i entry found
    split
    · exact .fail (contract.plain _ (by simp [Cause.kind]))
    · rename_i isClass
      exact .pure keeps ⟨released, .inl ⟨entry, found, by simpa using isClass, rfl⟩⟩
  · rename_i names absent aliased
    exact .pure keeps ⟨released, .inr ⟨absent, aliased⟩⟩
  · split
    · exact .fail (contract.plain _ (by simp [Cause.kind]))
    · split
      · rename_i reference imported
        exact .fail (contract.unimported keeps (completes.isOpen isOpen) imported _)
      · exact .fail (contract.plain _ (by simp [Cause.kind]))

theorem advances_referenceNames (meets : calls.Meet contract) {owner : String}
    {location : Location} {reference : Reference} (keeps : contract.keeps graph)
    (isOpen : graph.IsOpen site) (may : contract.MayRefer graph site reference) :
    Advances contract graph.resolving graph (referenceNames calls site owner location reference)
      fun names after => after.Reports workspace site reference names.1 := by
  rcases reference with ⟨name, source⟩
  cases source with
  | sameFile => exact advances_localNames meets keeps isOpen may
  | passThrough => exact .pure keeps rfl
  | file specifier =>
    refine .bind ((meets.load graph specifier site.path location keeps may.1).weaken ?_)
    rintro handle loaded completes keeps ⟨offers, means⟩
    rw [← completes.resolving]
    have later := Contract.mayResolve_later completes (may.2 _ means)
    refine .bind ((advances_lookUp meets keeps offers later).weaken ?_)
    rintro entry last _ keeps ⟨offers, found⟩
    split
    · exact .fail (contract.plain _ (by simp [Cause.kind]))
    · rename_i isClass
      exact .pure keeps ⟨handle, entry, means, offers, found, by simpa using isClass, rfl⟩

/-- The names that references were found to stand for, one after the other, on the way from one
graph to another. -/
def Reported (contract : Contract workspace) (graph current : Graph) (site : Site)
    (references : List Reference) (parts : List (List String)) : Prop :=
  List.Forall₂ (fun reference names => ∃ seen, graph.Completes workspace graph.resolving seen ∧
    contract.keeps seen ∧ seen.Reports workspace site reference names ∧
    seen.Completes workspace graph.resolving current) references parts

theorem Reported.later {current after : Graph} {references : List Reference}
    {parts : List (List String)} (reported : Reported contract graph current site references parts)
    (completes : current.Completes workspace graph.resolving after) :
    Reported contract graph after site references parts := by
  refine List.Forall₂.imp ?_ reported
  rintro reference names ⟨seen, before, keeps, reports, after⟩
  exact ⟨seen, before, keeps, reports, after.trans completes⟩

theorem advances_compose (meets : calls.Meet contract) {owner : String}
    {composition : Composition} {held : List (Path × String)} {good : Graph → Prop}
    (less : held ⊆ graph.resolving) (free : (site.path, owner) ∉ held)
    (keeps : contract.keeps graph) (isOpen : graph.IsOpen site)
    (owns : (graph.stateAt site).compositions.contains owner)
    (may : ∀ reference ∈ composition.references, contract.MayRefer graph site reference)
    (composes : ∀ current parts isExternal, graph.Completes workspace graph.resolving current →
      contract.keeps current → Reported contract graph current site composition.references parts →
      let composed := current.setState site
        ((current.stateAt site).compose owner (mergeNames parts) isExternal)
      contract.keeps composed ∧ good composed) :
    Advances contract held graph (compose calls site owner composition) fun _ => good := by
  refine .bind (.mono (.mapM
    (fun done values current => Reported contract graph current site done (values.map Prod.fst))
    keeps .nil ?_) less ?_)
  · intro done reference rest values equal current completes keeps reported
    have member : reference ∈ composition.references := by simp [equal]
    have later := Contract.mayRefer_later completes (may _ member)
    rw [← completes.resolving]
    apply (advances_referenceNames meets keeps (completes.isOpen isOpen) later).weaken
    intro names seen further keeps reports
    rw [completes.resolving] at further
    rw [List.map_append]
    exact List.rel_append (reported.later further)
      (.cons ⟨seen, completes.trans further, keeps, reports, .refl _ _ seen⟩ .nil)
  · intro values current completes keeps reported
    have holds := composes current (values.map Prod.fst) (values.any Prod.snd) completes keeps
      reported
    have same := (completes.develops isOpen).sameDeclarations.compositions
    exact .update (completes.isOpen isOpen) (.composed (same ▸ owns) free _ _) holds.1 holds.2

/-- Resolving an owner of compositions: an owner that waits is entered unless it is being resolved
already, its compositions keep an invariant, and in the end it waits no longer. -/
theorem advances_resolveOwner {outer inner : Contract workspace} (meets : calls.Meet inner)
    {owner : String} (keeps : outer.keeps graph) (isOpen : graph.IsOpen site)
    (excuses : ∀ halt, inner.blames halt → outer.blames halt)
    (invariant : List Composition → Graph → Prop)
    (blocked : ∀ chain, owner ∈ (graph.stateAt site).pending →
      graph.enter site.path owner = .error chain →
      outer.blames (cyclic site owner ((graph.stateAt site).compositionsOf owner) chain))
    (enters : ∀ entered, owner ∈ (graph.stateAt site).pending →
      graph.enter site.path owner = .ok entered →
      inner.keeps entered ∧ invariant [] entered ∧
        ∀ composition ∈ (graph.stateAt site).compositionsOf owner,
          ∀ reference ∈ composition.references, inner.MayRefer entered site reference)
    (composes : ∀ before done composition rest current parts isExternal,
      (graph.stateAt site).compositionsOf owner = done ++ composition :: rest →
      before.resolving = graph.resolving ++ [(site.path, owner)] → before.IsOpen site →
      inner.keeps before → invariant done before →
      before.Completes workspace before.resolving current → inner.keeps current →
      Reported inner before current site composition.references parts →
      let composed := current.setState site
        ((current.stateAt site).compose owner (mergeNames parts) isExternal)
      inner.keeps composed ∧ invariant (done ++ [composition]) composed)
    (released : ∀ after, after.resolving = graph.resolving ++ [(site.path, owner)] →
      after.IsOpen site → inner.keeps after →
      invariant ((graph.stateAt site).compositionsOf owner) after →
      outer.keeps (after.leave.setState site ((after.stateAt site).release owner))) :
    Advances outer graph.resolving graph (resolveOwner calls site owner) fun _ after =>
      owner ∉ (after.stateAt site).pending := by
  refine .stateAt ?_
  split
  · rename_i settled
    refine .pure keeps ?_
    simpa [ModuleState.isSettled] using settled
  rename_i waits
  have waits : owner ∈ (graph.stateAt site).pending := by
    simpa [ModuleState.isSettled] using waits
  refine Ensures.bind (Ensures.whileResolving ?_ ?_)
  · intro chain cycle
    exact ⟨.refl _ graph, blocked chain waits cycle⟩
  intro entered enter
  rcases enter_eq_ok enter with ⟨free, resolving, slots⟩
  rcases enters entered waits enter with ⟨keepsEntered, start, may⟩
  have isOpenEntered : entered.IsOpen site := by
    rcases isOpen with ⟨state, found⟩
    exact ⟨state, slots ▸ found⟩
  have sameState := Graph.stateAt_congr slots site
  refine Ensures.mono (@Advances.forM workspace inner graph.resolving _ _ _ _ invariant keepsEntered
    start ?_) ?_ ?_
  · intro done composition rest equal current completes keepsCurrent holds
    have isOpenCurrent := completes.isOpen isOpenEntered
    have resolvingCurrent := completes.resolving.trans resolving
    have member : composition ∈ (graph.stateAt site).compositionsOf owner := by simp [equal]
    have owns : (current.stateAt site).compositions.contains owner := by
      rw [(completes.develops isOpenEntered).sameDeclarations.compositions, sameState]
      exact ModuleState.contains_of_mem_compositionsOf member
    refine advances_compose meets ?_ free keepsCurrent isOpenCurrent owns ?_ ?_
    · rw [resolvingCurrent]
      exact List.subset_append_left _ _
    · intro reference referred
      exact Contract.mayRefer_later completes (may composition member reference referred)
    · intro later parts isExternal further keepsLater reported
      exact composes current done composition rest later parts isExternal equal resolvingCurrent
        isOpenCurrent keepsCurrent holds further keepsLater reported
  · rintro _ after ⟨completes, keepsAfter, holds⟩
    have resolvingAfter := completes.resolving.trans resolving
    have isOpenAfter := completes.isOpen isOpenEntered
    have left := (completes.leave enter).trans
      (.setState workspace graph.resolving isOpenAfter (.released free))
    refine Ensures.update
      ⟨left, released after resolvingAfter isOpenAfter keepsAfter holds, ?_⟩
    dsimp only
    rw [stateAt_setState, ModuleState.mem_release]
    exact fun waiting => waiting.2 rfl
  · rintro halt after ⟨evolves, blames⟩
    exact ⟨evolves.leave enter, excuses halt blames⟩

theorem advances_resolveImport (meets : calls.Meet contract) {reference : ImportReference}
    (keeps : contract.keeps graph) (isOpen : graph.IsOpen site)
    (listed : reference ∈ (graph.stateAt site).imports)
    (may : contract.MayTake graph reference.specifier site.path reference.imported) :
    Advances contract graph.resolving graph (resolveImport calls site reference)
      fun _ after => (after.stateAt site).symbols.contains reference.localName := by
  refine .bind ((meets.load graph _ _ _ keeps may.1).weaken ?_)
  rintro handle loaded completes keeps ⟨offers, means⟩
  rw [← completes.resolving]
  have later := Contract.mayResolve_later completes (may.2 _ means)
  refine .bind ((advances_lookUp meets keeps offers later).weaken ?_)
  rintro entry current further keeps ⟨offers, found⟩
  have evolves := completes.toEvolves.trans (completes.resolving ▸ further.toEvolves)
  have same := (evolves.develops isOpen).sameDeclarations.imports
  have listed : reference ∈ (current.stateAt site).imports := same ▸ listed
  refine .update (evolves.isOpen isOpen) (.imported listed entry)
    (contract.imported (evolves.isOpen isOpen) listed means offers found keeps) ?_
  rw [stateAt_setState, OrderedMap.contains, ModuleState.get?_symbols_recordImported, if_pos rfl]
  rfl

/-- Imports that may be taken are taken one after the other, and have texts in the end. -/
theorem advances_imports (meets : calls.Meet contract) (keeps : contract.keeps graph)
    (isOpen : graph.IsOpen site)
    (mayImport : ∀ reference ∈ (graph.stateAt site).imports,
      contract.MayTake graph reference.specifier site.path reference.imported) :
    Advances contract graph.resolving graph
      ((graph.stateAt site).imports.forM (resolveImport calls site))
      fun _ after => ∀ reference ∈ (graph.stateAt site).imports,
        (after.stateAt site).symbols.contains reference.localName := by
  refine .forM (fun (done : List ImportReference) current => ∀ reference ∈ done,
    (current.stateAt site).symbols.contains reference.localName) keeps (by simp) ?_
  intro done reference rest equal current completes keeps known
  have member : reference ∈ (graph.stateAt site).imports := by simp [equal]
  have same := (completes.develops isOpen).sameDeclarations.imports
  rw [← completes.resolving]
  apply (advances_resolveImport meets keeps (completes.isOpen isOpen) (same ▸ member)
    (Contract.mayTake_later completes (mayImport _ member))).weaken
  intro _ after further _ added other listed
  rcases List.mem_append.mp listed with earlier | last
  · exact (further.develops (completes.isOpen isOpen)).contains_symbols (known other earlier)
  · exact List.mem_singleton.mp last ▸ added

/-- Owners of compositions, once no literal is left, are resolved one after the other. -/
theorem advances_owners (meets : calls.Meet contract) (keeps : contract.keeps graph)
    (isOpen : graph.IsOpen site) (settled : (graph.stateAt site).literals = .empty)
    {owners : List String} (may : ∀ owner ∈ owners, contract.mayResolve graph site owner) :
    Advances contract graph.resolving graph (owners.forM (calls.resolveOwner site))
      fun _ after => ∀ owner ∈ owners, owner ∉ (after.stateAt site).pending := by
  have noLiteral : ∀ name, ¬ (graph.stateAt site).literals.contains name := by simp [settled]
  refine .forM (fun done current => ∀ owner ∈ done, owner ∉ (current.stateAt site).pending) keeps
    (by simp) ?_
  intro done owner rest equal current completes keeps released
  have isOpen' := completes.isOpen isOpen
  rw [← completes.resolving]
  have later := Contract.mayResolve_later completes (may owner (by simp [equal]))
  apply (meets.resolveOwner current site owner keeps isOpen' later).weaken
  intro _ after further _ settled other member waits
  rcases List.mem_append.mp member with earlier | last
  · have develops := further.develops isOpen'
    have absent : ¬ (current.stateAt site).literals.contains other := fun known =>
      noLiteral other ((completes.develops isOpen).contains_literals known)
    exact released other earlier (develops.mem_pending absent waits)
  · exact settled (List.mem_singleton.mp last ▸ waits)

/-- A whole file: its imports may be taken, and its owners of compositions may be resolved. It can
be closed in the end. -/
theorem advances_resolve (meets : calls.Meet contract) (keeps : contract.keeps graph)
    (isOpen : graph.IsOpen site)
    (mayImport : ∀ reference ∈ (graph.stateAt site).imports,
      contract.MayTake graph reference.specifier site.path reference.imported)
    (mayOwn : ∀ owner, (graph.stateAt site).compositions.contains owner →
      contract.mayResolve graph site owner) :
    Advances contract graph.resolving graph (resolve calls site) fun _ after =>
      (after.stateAt site).Complete := by
  refine .stateAt (.bind ((advances_imports meets keeps isOpen mayImport).weaken ?_))
  intro _ imported completes keeps known
  have isOpen' := completes.isOpen isOpen
  refine .bind (.update isOpen' (.settled []) (contract.settled [] isOpen' keeps) (.stateAt ?_))
  have settles := Completes.setState workspace graph.resolving isOpen' (.settled [])
  have develops := settles.develops isOpen'
  have completes := completes.trans settles
  have keeps := contract.settled [] isOpen' keeps
  generalize located : imported.setState site ((imported.stateAt site).settleLiterals []) = settled
    at completes keeps develops
  have noLiterals : (settled.stateAt site).literals = .empty := by
    rw [← located, stateAt_setState, ModuleState.literals_settleLiterals_nil]
  have same := (completes.develops isOpen).sameDeclarations
  rw [← completes.resolving]
  refine (advances_owners meets keeps (completes.isOpen isOpen) noLiterals ?_).weaken ?_
  · intro owner member
    have owns := (OrderedMap.contains_iff_mem_keys _ owner).mpr member
    exact Contract.mayResolve_later completes (mayOwn owner (same.compositions ▸ owns))
  · intro _ after further _ released
    have further := further.develops (completes.isOpen isOpen)
    constructor
    · intro owner owns
      rw [further.sameDeclarations.compositions] at owns
      exact released owner ((OrderedMap.contains_iff_mem_keys _ owner).mp owns)
    · intro name remains
      simpa [noLiterals] using further.contains_literals remains
    · intro reference listed
      rw [further.sameDeclarations.imports, same.imports] at listed
      exact further.contains_symbols (develops.contains_symbols (known reference listed))

end Resolution

end ScopedStyles
