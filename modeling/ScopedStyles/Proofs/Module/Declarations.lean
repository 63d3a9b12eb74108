import ScopedStyles.Proofs.Module.Introductions

/-!
What the state of a file knows about its declarations once they have been made: which names wait
and why, where the owners of compositions come from, and what each name stands for when every name
is introduced in one way.
-/

namespace ScopedStyles

namespace ModuleState

variable {context : FileContext} {state : ModuleState} {records : List Record}

/-! ## Waiting names and aliases -/

/-- Owners of compositions wait, everything that waits has a cause, and the aliases of imported
values are aliases of imports. -/
structure Coherent (state : ModuleState) : Prop where
  ownersWait : ∀ owner, state.compositions.contains owner → owner ∈ state.pending
  waitsForCause : state.WaitsForCause
  aliasesImported : ∀ name ∈ state.valueAliases,
    name ∈ state.imports.map ImportReference.localName

theorem coherent_empty : Coherent .empty where
  ownersWait _ owns := by cases owns
  waitsForCause _ waits := by cases waits
  aliasesImported _ known := by cases known

theorem contains_compositions_recordComposition (state : ModuleState) (content : Composition)
    (owner other : String) :
    (state.recordComposition content owner).compositions.contains other ↔
      other = owner ∨ state.compositions.contains other := by
  simp [recordComposition, await, OrderedMap.contains_insert]

/-- What waits still has a cause in a state with more declarations, if what is new has one. -/
theorem WaitsForCause.extend {later : ModuleState} (causes : state.WaitsForCause)
    (compositions : ∀ name, state.compositions.contains name → later.compositions.contains name)
    (literals : ∀ name, state.literals.contains name → later.literals.contains name)
    (aliases : state.valueAliases ⊆ later.valueAliases)
    (new : ∀ name ∈ later.pending, name ∉ state.pending →
      later.compositions.contains name ∨ later.literals.contains name ∨
        name ∈ later.valueAliases) : later.WaitsForCause := by
  intro name waits
  by_cases earlier : name ∈ state.pending
  · rcases causes name earlier with owns | known | aliased
    · exact .inl (compositions name owns)
    · exact .inr (.inl (literals name known))
    · exact .inr (.inr (aliases aliased))
  · exact new name waits earlier

theorem Coherent.declare (coherent : state.Coherent) (record : Record) :
    (record.declare context state).Coherent := by
  rcases coherent with ⟨ownersWait, waitsForCause, aliasesImported⟩
  cases record with
  | declared | passed | keyframes | malformed =>
    exact ⟨ownersWait, waitsForCause, aliasesImported⟩
  | imported reference =>
    refine ⟨ownersWait, waitsForCause, ?_⟩
    intro name known
    rcases List.mem_map.mp (aliasesImported name known) with ⟨other, member, equal⟩
    exact List.mem_map.mpr ⟨other, List.mem_append_left _ member, equal⟩
  | literal name content =>
    have contained (other : String) :
        (state.literals.insert name content).contains other ↔
          other = name ∨ state.literals.contains other := by
      simp [OrderedMap.contains_insert]
    refine ⟨fun owner owns => mem_addNew.mpr (.inr (ownersWait owner owns)), ?_, aliasesImported⟩
    refine waitsForCause.extend (fun _ owns => owns)
      (fun other known => (contained other).mpr (.inr known)) (List.Subset.refl _) ?_
    intro other waits isNew
    have equal := (mem_addNew.mp waits).resolve_right isNew
    exact .inr (.inl ((contained other).mpr (.inl equal)))
  | importedValue value source location =>
    refine ⟨fun owner owns => mem_addNew.mpr (.inr (ownersWait owner owns)), ?_, ?_⟩
    · refine waitsForCause.extend (fun _ owns => owns) (fun _ known => known)
        (fun _ aliased => mem_addNew.mpr (.inr aliased)) ?_
      intro other waits isNew
      have equal := (mem_addNew.mp waits).resolve_right isNew
      exact .inr (.inr (mem_addNew.mpr (.inl equal)))
    · intro name known
      change name ∈ (state.imports ++ [_]).map ImportReference.localName
      rw [List.map_append, List.mem_append]
      rcases mem_addNew.mp known with equal | earlier
      · exact .inr (List.mem_singleton.mpr equal)
      · exact .inl (aliasesImported name earlier)
  | composition owner content =>
    have contained := contains_compositions_recordComposition state content owner
    refine ⟨?_, ?_, aliasesImported⟩
    · intro other owns
      apply mem_await.mpr
      exact ((contained other).mp owns).imp_right (ownersWait other)
    · refine waitsForCause.extend (fun other owns => (contained other).mpr (.inr owns))
        (fun _ known => known) (List.Subset.refl _) ?_
      intro other waits isNew
      have equal := (mem_await.mp waits).resolve_right isNew
      exact .inl ((contained other).mpr (.inl equal))

theorem Coherent.replay (coherent : state.Coherent) :
    (records.foldl (Record.declare context) state).Coherent :=
  List.foldlRecOn (motive := Coherent) records _ coherent
    fun _ coherent record _ => coherent.declare record

/-! ## Owners of compositions -/

theorem contains_compositions_declare {record : Record} {owner : String}
    (owns : (record.declare context state).compositions.contains owner) :
    state.compositions.contains owner ∨ ∃ content, record = .composition owner content := by
  cases record with
  | composition other content =>
    rcases (contains_compositions_recordComposition ..).mp owns with equal | earlier
    · exact .inr ⟨content, by rw [equal]⟩
    · exact .inl earlier
  | declared | passed | keyframes | imported | literal | importedValue | malformed =>
    exact .inl owns

theorem contains_compositions_replay {owner : String}
    (owns : (records.foldl (Record.declare context) state).compositions.contains owner) :
    state.compositions.contains owner ∨ ∃ content, .composition owner content ∈ records := by
  induction records generalizing state with
  | nil => exact .inl owns
  | cons record rest induction =>
    rcases induction owns with earlier | ⟨content, member⟩
    · rcases contains_compositions_declare earlier with before | ⟨content, rfl⟩
      · exact .inl before
      · exact .inr ⟨content, List.mem_cons_self⟩
    · exact .inr ⟨content, List.mem_cons_of_mem _ member⟩

/-- The compositions of a class among some records. -/
def compositionsFor (owner : String) (records : List Record) : List Composition :=
  (records.filterMap Record.composition?).filterMap fun entry =>
    if entry.1 = owner then some entry.2 else none

theorem compositionsFor_append (owner : String) (first second : List Record) :
    compositionsFor owner (first ++ second) =
      compositionsFor owner first ++ compositionsFor owner second := by
  simp [compositionsFor]

theorem compositionsFor_eq_nil {records : List Record} (owner : String)
    (none : ∀ record ∈ records, record.composition? = none) :
    compositionsFor owner records = [] := by
  rw [compositionsFor, List.filterMap_eq_nil_iff.mpr none, List.filterMap_nil]

theorem mem_compositionsFor {owner : String} {content : Composition} :
    content ∈ compositionsFor owner records ↔ .composition owner content ∈ records := by
  constructor
  · intro member
    rcases List.mem_filterMap.mp member with ⟨⟨other, added⟩, recorded, isOwner⟩
    rcases List.mem_filterMap.mp recorded with ⟨record, inside, composes⟩
    cases record <;> simp_all [Record.composition?]
  · intro member
    apply List.mem_filterMap.mpr
    refine ⟨(owner, content), List.mem_filterMap.mpr ⟨_, member, rfl⟩, ?_⟩
    simp

/-- A composition that is recorded for some classes is recorded for a class as often as it is one
of them. -/
theorem compositionsFor_classes (owner : String) (classes : List String)
    (content : Composition) :
    compositionsFor owner (classes.map (.composition · content)) =
      .replicate (classes.count owner) content := by
  induction classes with
  | nil => rfl
  | cons other rest induction =>
    rw [List.map_cons, ← List.singleton_append, compositionsFor_append, induction,
      List.count_cons]
    by_cases equal : other = owner
    · simp [equal, compositionsFor, Record.composition?, List.replicate_succ]
    · simp [equal, compositionsFor, Record.composition?]

theorem compositionsOf_declare (state : ModuleState) (record : Record) (owner : String) :
    (record.declare context state).compositionsOf owner =
      state.compositionsOf owner ++ compositionsFor owner [record] := by
  cases record with
  | composition other added =>
    change ((state.compositions.insert other
      (state.compositionsOf other ++ [added])).get? owner).getD [] = _
    rw [OrderedMap.get?_insert]
    by_cases equal : owner = other
    · simp [equal, compositionsFor, Record.composition?]
    · simp [equal, Ne.symm equal, compositionsFor, Record.composition?, compositionsOf]
  | declared | passed | keyframes | imported | literal | importedValue | malformed =>
    exact (List.append_nil _).symm

theorem compositionsOf_replay (state : ModuleState) (records : List Record) (owner : String) :
    (records.foldl (Record.declare context) state).compositionsOf owner =
      state.compositionsOf owner ++ compositionsFor owner records := by
  induction records generalizing state with
  | nil => exact (List.append_nil _).symm
  | cons record rest induction =>
    rw [List.foldl_cons, induction, compositionsOf_declare, List.append_assoc,
      ← compositionsFor_append, List.singleton_append]

theorem mem_compositionsOf_replay {owner : String} {content : Composition} :
    content ∈ (records.foldl (Record.declare context) state).compositionsOf owner ↔
      content ∈ state.compositionsOf owner ∨ .composition owner content ∈ records := by
  rw [compositionsOf_replay, List.mem_append, mem_compositionsFor]

/-! ## Keyframes -/

theorem get?_keyframes_declare (state : ModuleState) (record : Record) (name : String) :
    (record.declare context state).keyframes.get? name =
      if record = .keyframes name then some (context.scopedName name)
      else state.keyframes.get? name := by
  cases record with
  | keyframes other =>
    change (state.keyframes.insert other (context.scopedName other)).get? name = _
    rw [OrderedMap.get?_insert]
    by_cases equal : name = other
    · simp [equal]
    · simp [equal, Ne.symm equal]
  | declared | passed | imported | literal | importedValue | composition | malformed => simp; rfl

theorem get?_keyframes_replay (state : ModuleState) (records : List Record) (name : String) :
    (records.foldl (Record.declare context) state).keyframes.get? name =
      if .keyframes name ∈ records then some (context.scopedName name)
      else state.keyframes.get? name := by
  induction records generalizing state with
  | nil => rfl
  | cons record rest induction =>
    rw [List.foldl_cons, induction, get?_keyframes_declare]
    by_cases behind : .keyframes name ∈ rest
    · simp [behind]
    · by_cases first : record = .keyframes name
      · simp [first]
      · simp [behind, first, Ne.symm first]

/-! ## Imports -/

theorem map_localName_declare (state : ModuleState) (record : Record) :
    (record.declare context state).imports.map ImportReference.localName =
      state.imports.map ImportReference.localName ++ record.alias?.toList := by
  cases record with
  | imported | importedValue =>
    exact List.map_append
  | declared | passed | keyframes | literal | composition | malformed =>
    exact (List.append_nil _).symm

theorem map_localName_replay (state : ModuleState) (records : List Record) :
    (records.foldl (Record.declare context) state).imports.map ImportReference.localName =
      state.imports.map ImportReference.localName ++ records.filterMap Record.alias? := by
  induction records generalizing state with
  | nil => exact (List.append_nil _).symm
  | cons record rest induction =>
    rw [List.foldl_cons, induction, map_localName_declare, List.append_assoc]
    cases aliased : record.alias? with
    | none => rw [List.filterMap_cons_none aliased, Option.toList_none, List.nil_append]
    | some name => rw [List.filterMap_cons_some aliased, Option.toList_some, List.singleton_append]

theorem importOf?_of_mem (distinct : (state.imports.map ImportReference.localName).Nodup)
    {reference : ImportReference} (member : reference ∈ state.imports) :
    state.importOf? reference.localName = some reference := by
  unfold importOf?
  revert distinct member
  generalize state.imports = imports
  intro distinct member
  induction imports with
  | nil => cases member
  | cons first rest induction =>
    rcases List.nodup_cons.mp distinct with ⟨absent, distinct⟩
    rcases List.mem_cons.mp member with rfl | later
    · exact List.find?_cons_of_pos (by simp)
    · have different : first.localName ≠ reference.localName := fun equal =>
        absent (equal ▸ List.mem_map_of_mem later)
      rw [List.find?_cons_of_neg (by simp [different])]
      exact induction distinct later

end ModuleState

/-! ## Records of a sheet -/

namespace Collect

variable {context : FileContext}

/-- Every owner of compositions is recorded as a class. -/
def OwnersDeclared (records : List Record) : Prop :=
  ∀ owner content, .composition owner content ∈ records → .declared owner ∈ records

theorem OwnersDeclared.append {first second : List Record} (left : OwnersDeclared first)
    (right : OwnersDeclared second) : OwnersDeclared (first ++ second) := by
  intro owner content member
  rcases List.mem_append.mp member with earlier | later
  · exact List.mem_append_left _ (left owner content earlier)
  · exact List.mem_append_right _ (right owner content later)

theorem declared_of_singleLocalClass? (context : FileContext) {selector : AnnotatedSelector}
    {owner : String} (single : selector.singleLocalClass? = some owner) :
    .declared owner ∈ selector.segments.filterMap (segmentRecord? context) := by
  unfold AnnotatedSelector.singleLocalClass? at single
  split at single
  · rename_i name spelling only
    cases single
    have member : Selector.Segment.name .dot owner spelling true ∈ selector.segments := by
      have kept : Selector.Segment.name .dot owner spelling true ∈
          selector.segments.filter fun segment => !segment.isBlank := by simp [only]
      exact (List.mem_filter.mp kept).1
    exact List.mem_filterMap.mpr ⟨_, member, rfl⟩
  · cases single

theorem exists_of_mem_mapM {items : List α} {value? : α → Option β} {values : List β} {value : β}
    (found : items.mapM value? = some values) (member : value ∈ values) :
    ∃ item ∈ items, value? item = some value := by
  induction items generalizing values with
  | nil =>
    rw [List.mapM_nil] at found
    cases found
    cases member
  | cons item rest induction =>
    rw [List.mapM_cons] at found
    rcases Option.bind_eq_some_iff.mp found with ⟨first, isFirst, found⟩
    rcases Option.bind_eq_some_iff.mp found with ⟨others, areOthers, found⟩
    cases found
    rcases List.mem_cons.mp member with rfl | later
    · exact ⟨item, List.mem_cons_self, isFirst⟩
    · rcases induction areOthers later with ⟨other, later, isValue⟩
      exact ⟨other, List.mem_cons_of_mem _ later, isValue⟩

theorem ownersDeclared_rule (selectors : List AnnotatedSelector) (body : List Node) :
    OwnersDeclared (nameRecords context selectors ++ compositionRecords selectors body) := by
  intro owner content member
  apply List.mem_append_left _
  rcases List.mem_append.mp member with named | composed
  · rcases List.mem_filterMap.mp named with ⟨segment, _, isRecord⟩
    unfold segmentRecord? at isRecord
    split at isRecord <;> simp at isRecord
  · rcases List.mem_flatMap.mp composed with ⟨declaration, _, composed⟩
    rcases List.mem_map.mp composed with ⟨other, owns, equal⟩
    cases equal
    unfold owners at owns
    cases found : selectors.mapM AnnotatedSelector.singleLocalClass? with
    | none =>
      rw [found] at owns
      cases owns
    | some names =>
      rw [found] at owns
      rcases exists_of_mem_mapM found owns with ⟨selector, selected, single⟩
      rcases List.mem_filterMap.mp (declared_of_singleLocalClass? context single) with
        ⟨segment, inSelector, isRecord⟩
      exact List.mem_filterMap.mpr
        ⟨segment, List.mem_flatMap.mpr ⟨selector, selected, inSelector⟩, isRecord⟩

theorem OwnersDeclared.of_none {records : List Record}
    (none : ∀ owner content, .composition owner content ∉ records) : OwnersDeclared records :=
  fun owner content member => absurd member (none owner content)

theorem ownersDeclared_value (params : String) (location : Location) :
    OwnersDeclared (valueRecords params location) := by
  refine .of_none fun owner content => ?_
  unfold valueRecords
  split <;> simp

theorem ownersDeclared_params (frame : Frame) (name params : String) :
    OwnersDeclared (paramsRecords context frame name params) := by
  refine .of_none fun owner content => ?_
  unfold paramsRecords headerRecords
  dsimp only
  split
  · split
    · simp
    · split <;> simp
  · simp

mutual
theorem ownersDeclared_node (frame : Frame) :
    (item : Node) → OwnersDeclared (nodeRecords context frame item)
  | .rule selector body location => by
    rw [nodeRecords_rule]
    cases ruleKind frame.mode frame.inKeyframes selector with
    | wrapper mode => exact ownersDeclared_nodes { frame with mode } body
    | imports _ => exact .of_none (by simp [importRecords])
    | exports => exact .of_none (by simp [exportRecords])
    | step | refused _ => exact .of_none (by simp)
    | ordinary selectors =>
      exact (ownersDeclared_rule selectors body).append
        (ownersDeclared_nodes (frame.inRule selectors) body)
  | .block name params body location => by
    unfold nodeRecords
    split
    · exact ownersDeclared_value params location
    · exact (ownersDeclared_params frame name params).append (ownersDeclared_nodes _ body)
  | .statement name params location => by
    unfold nodeRecords
    split
    · exact ownersDeclared_value params location
    · exact ownersDeclared_params frame name params
  | .declaration content => .of_none (by simp [nodeRecords])
  | .comment text location => .of_none (by simp [nodeRecords])

theorem ownersDeclared_nodes (frame : Frame) :
    (items : List Node) → OwnersDeclared (nodesRecords context frame items)
  | [] => .of_none (by simp [nodesRecords])
  | first :: rest =>
    (ownersDeclared_node frame first).append (ownersDeclared_nodes frame rest)
end

/-! ## The state of a sheet -/

variable {sheet : Stylesheet}

theorem coherent_declaredState : (declaredState context sheet).Coherent :=
  ModuleState.coherent_empty.replay

theorem declared_of_contains_compositions {owner : String}
    (owns : (declaredState context sheet).compositions.contains owner) :
    .declared owner ∈ sheetRecords context sheet := by
  rcases ModuleState.contains_compositions_replay owns with none | ⟨content, member⟩
  · cases none
  · exact ownersDeclared_nodes _ _ owner content member

theorem classAliases_declaredState : (declaredState context sheet).classAliases = .empty := by
  suffices general : ∀ (records : List Record) (state : ModuleState),
      (records.foldl (Record.declare context) state).classAliases = state.classAliases from
    general _ .empty
  intro records
  induction records with
  | nil => exact fun _ => rfl
  | cons record rest induction =>
    intro state
    rw [List.foldl_cons, induction]
    cases record <;> rfl

variable (oneWay : Record.OneWay (sheetRecords context sheet))

include oneWay

theorem distinct_imports :
    ((declaredState context sheet).imports.map ImportReference.localName).Nodup := by
  rw [declaredState, ModuleState.map_localName_replay]
  change List.Pairwise _ ([] ++ _)
  rw [List.nil_append, List.pairwise_filterMap]
  refine List.Pairwise.imp ?_ oneWay
  intro first second agrees name isFirst other isSecond equal
  subst equal
  rcases Record.introduced?_of_alias? isFirst with ⟨introduces, noClass⟩
  refine noClass (agrees (by simp [introduces]) ?_).1
  rw [introduces, (Record.introduced?_of_alias? isSecond).1]

theorem namesClass_or_namesText (name : String) :
    (declaredState context sheet).NamesClass name ∨
      (declaredState context sheet).NamesText name := by
  rcases oneWay.dichotomy name with isClass | noClass
  · refine .inl (ModuleState.NamesClass.replay ⟨⟨?_, ?_⟩, ?_, ?_⟩ isClass)
    · exact nofun
    · exact nofun
    · exact nofun
    · exact nofun
  · exact .inr (ModuleState.NamesText.replay nofun noClass)

/-- An owner of compositions is a class with its scoped name, and nothing composed so far. -/
theorem namesClass_of_contains_compositions {owner : String}
    (owns : (declaredState context sheet).compositions.contains owner) :
    (declaredState context sheet).NamesClass owner ∧
      (declaredState context sheet).table.get? owner =
        some (.plain .localName (context.scopedName owner)) := by
  have declared := declared_of_contains_compositions owns
  have isClass : ∀ record ∈ sheetRecords context sheet, record.introduced? = some owner →
      record.isClass := by
    rcases oneWay.dichotomy owner with isClass | noClass
    · exact isClass
    · exact absurd rfl (noClass _ declared rfl)
  have namesClass : (declaredState context sheet).NamesClass owner :=
    ModuleState.NamesClass.replay ⟨⟨nofun, nofun⟩, nofun, nofun⟩ isClass
  obtain ⟨entry, found, primary, kind⟩ : (declaredState context sheet).HasOwn owner
      (context.scopedName owner) .localName := by
    refine ModuleState.hasOwn_replay ⟨_, declared, rfl⟩ fun record member writes => ?_
    obtain ⟨introduces, noClass⟩ := Record.introduced?_of_writes? writes
    exact noClass (isClass record member introduces)
  rcases namesClass.plain entry found with ⟨kind', primary', _, rfl⟩
  refine ⟨namesClass, found.trans ?_⟩
  rw [← primary, ← kind]
  rfl

end Collect

end ScopedStyles
