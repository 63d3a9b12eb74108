import ScopedStyles.Proofs.Module.RuleKinds

/-!
What a file declares, as the list of its records. The walk that collects a file does two things: it
replays the records of the file, in order, and it takes the sheet to what is printed of it. Both
are functions of the sheet alone.
-/

namespace ScopedStyles

open Text

inductive Record where
  /-- A local class or id. -/
  | declared (name : String)
  /-- An exported name that passes through. -/
  | passed (name : String)
  | keyframes (name : String)
  | imported (reference : ImportReference)
  | literal (name : String) (content : Literal)
  | importedValue (name : ImportedName) (source : ValueSource) (location : Location)
  | composition (owner : String) (content : Composition)
  /-- A rule that should define or import values and cannot be read. -/
  | malformed (location : Location) (params : String)
deriving DecidableEq, Repr

/-- The file that values are imported from, when a name stands for the path in a value. -/
def ValueSource.specifierIn (state : ModuleState) : ValueSource → String
  | .path specifier => specifier
  | .value name => ((state.literals.get? name).map fun literal => unquote literal.raw).getD ""

namespace Record

/-- What a record adds to the state of its file. -/
def declare (context : FileContext) (state : ModuleState) : Record → ModuleState
  | .declared name => state.declareLocal name (context.scopedName name)
  | .passed name => state.declareGlobal name
  | .keyframes name => state.recordKeyframes name (context.scopedName name)
  | .imported reference => state.recordImport reference
  | .literal name content => state.recordLiteral name content
  | .importedValue name source location =>
    state.recordValueImport ⟨source.specifierIn state, name.imported, name.localName, location⟩
  | .composition owner content => state.recordComposition content owner
  | .malformed .. => state

def malformed? : Record → Option (Location × String)
  | .malformed location params => some (location, params)
  | _ => none

end Record

/-- What has been collected once these records have been made. -/
def Collection.replay (context : FileContext) (collection : Collection) (records : List Record) :
    Collection :=
  ⟨records.foldl (Record.declare context) collection.state,
    collection.malformed ++ records.filterMap Record.malformed?⟩

theorem Collection.replay_append (context : FileContext) (collection : Collection)
    (first second : List Record) :
    collection.replay context (first ++ second) =
      (collection.replay context first).replay context second := by
  simp [replay]

namespace Collect

/-! ## The records of a file -/

def segmentRecord? (context : FileContext) : Selector.Segment → Option Record
  | .name _ name _ true => some (.declared name)
  | .name _ name _ false => if context.exportGlobals then some (.passed name) else none
  | .text _ => none

def nameRecords (context : FileContext) (selectors : List AnnotatedSelector) : List Record :=
  (selectors.flatMap AnnotatedSelector.segments).filterMap (segmentRecord? context)

/-- The classes that own the compositions of a rule. -/
def owners (selectors : List AnnotatedSelector) : List String :=
  (selectors.mapM AnnotatedSelector.singleLocalClass?).getD []

def compositionRecords (selectors : List AnnotatedSelector) (body : List Node) : List Record :=
  ((declarationsOf body).filter Composition.isComposing).flatMap fun content =>
    (owners selectors).map fun owner => .composition owner (.ofDeclaration content)

def importRecords (specifier : String) (body : List Node) : List Record :=
  ((declarationsOf body).filterMap (importReference? specifier)).map .imported

def exportRecords (body : List Node) : List Record :=
  (declarationsOf body).map fun content =>
    .literal (exportedLiteral content).1 (exportedLiteral content).2

def valueRecords (params : String) (location : Location) : List Record :=
  match ValueRule.parse params with
  | none => [.malformed location params]
  | some (.definition name value) => [.literal name ⟨value, true, location⟩]
  | some (.imports names source) => names.map (.importedValue · source location)

/-- The records of the header of keyframes. -/
def headerRecords (context : FileContext) (mode : Mode) (params : String) : List Record :=
  let header := Keyframes.readHeader params mode.isLocal
  if header.isLocal then [.keyframes header.name]
  else if context.exportGlobals && !(header.name.toList.head?.map isQuote).getD false then
    [.passed header.name]
  else []

def paramsRecords (context : FileContext) (frame : Frame) (name params : String) : List Record :=
  if Keyframes.isKeyframes name then headerRecords context frame.mode params else []

/-- The header of keyframes as it is printed. -/
def printedHeader (context : FileContext) (mode : Mode) (params : String) : String :=
  let header := Keyframes.readHeader params mode.isLocal
  if header.isLocal then context.scopedName header.name else header.name

/-- The parameters of an at-rule that stays. -/
def printedParams (context : FileContext) (frame : Frame) (name params : String) : String :=
  if Keyframes.isKeyframes name then printedHeader context frame.mode params else params

mutual
def nodeRecords (context : FileContext) (frame : Frame) : Node → List Record
  | .rule selector body _ =>
    match Mode.ofBlockSelector? selector with
    | some mode => nodesRecords context { frame with mode } body
    | none =>
      match importSpecifier? selector with
      | some specifier => importRecords specifier body
      | none =>
        if trim selector = ":export" then exportRecords body
        else if frame.inKeyframes then []
        else
          match annotateSelectors selector frame.mode with
          | .error _ => []
          | .ok selectors =>
            nameRecords context selectors ++ compositionRecords selectors body ++
              nodesRecords context (frame.inRule selectors) body
  | .block name params body location =>
    if isValueRule name then valueRecords params location
    else
      paramsRecords context frame name params ++
        nodesRecords context
          { frame with inKeyframes := frame.inKeyframes || Keyframes.isKeyframes name } body
  | .statement name params location =>
    if isValueRule name then valueRecords params location
    else paramsRecords context frame name params
  | .declaration _ | .comment .. => []

def nodesRecords (context : FileContext) (frame : Frame) : List Node → List Record
  | [] => []
  | first :: rest => nodeRecords context frame first ++ nodesRecords context frame rest
end

theorem nodeRecords_rule (context : FileContext) (frame : Frame) (selector : String)
    (body : List Node) (location : Location) :
    nodeRecords context frame (.rule selector body location) =
      match ruleKind frame.mode frame.inKeyframes selector with
      | .wrapper mode => nodesRecords context { frame with mode } body
      | .imports specifier => importRecords specifier body
      | .exports => exportRecords body
      | .step | .refused _ => []
      | .ordinary selectors =>
        nameRecords context selectors ++ compositionRecords selectors body ++
          nodesRecords context (frame.inRule selectors) body := by
  unfold nodeRecords
  generalize isKind : ruleKind frame.mode frame.inKeyframes selector = kind
  cases of_ruleKind isKind <;> simp [*]

mutual
/-- What is printed of a node, before anything is substituted in it. -/
def printedNode (context : FileContext) (frame : Frame) (inRule : Bool) : Node → List Node
  | .rule selector body location =>
    match Mode.ofBlockSelector? selector with
    | some mode => printedNodes context { frame with mode } false body
    | none =>
      match importSpecifier? selector with
      | some _ => []
      | none =>
        if trim selector = ":export" then []
        else if frame.inKeyframes then [.rule selector body location]
        else
          match annotateSelectors selector frame.mode with
          | .error _ => []
          | .ok selectors =>
            [.rule (renderSelectors context.scopedName selectors)
              (printedNodes context (frame.inRule selectors) true body) location]
  | .block name params body location =>
    if isValueRule name then []
    else
      [.block name (printedParams context frame name params)
        (printedNodes context
          { frame with inKeyframes := frame.inKeyframes || Keyframes.isKeyframes name } false body)
        location]
  | .statement name params location =>
    if isValueRule name then []
    else [.statement name (printedParams context frame name params) location]
  | .declaration content =>
    if inRule && Composition.isComposing content then [] else [.declaration content]
  | .comment text location => [.comment text location]

def printedNodes (context : FileContext) (frame : Frame) (inRule : Bool) : List Node → List Node
  | [] => []
  | first :: rest =>
    printedNode context frame inRule first ++ printedNodes context frame inRule rest
end

theorem printedNode_rule (context : FileContext) (frame : Frame) (inRule : Bool)
    (selector : String) (body : List Node) (location : Location) :
    printedNode context frame inRule (.rule selector body location) =
      match ruleKind frame.mode frame.inKeyframes selector with
      | .wrapper mode => printedNodes context { frame with mode } false body
      | .imports _ | .exports | .refused _ => []
      | .step => [.rule selector body location]
      | .ordinary selectors =>
        [.rule (renderSelectors context.scopedName selectors)
          (printedNodes context (frame.inRule selectors) true body) location] := by
  unfold printedNode
  generalize isKind : ruleKind frame.mode frame.inKeyframes selector = kind
  cases of_ruleKind isKind <;> simp [*]

/-! ## What collecting comes to -/

/-- What an action comes to on a collection. -/
def outcome (action : Collecting α) (collection : Collection) : Except Failure α × Collection :=
  (action.run.run collection).run

theorem outcome_get (collection : Collection) :
    outcome get collection = (.ok collection, collection) := rfl

theorem outcome_bind (action : Collecting α) (next : α → Collecting β) (collection : Collection) :
    outcome (action >>= next) collection =
      match outcome action collection with
      | (.ok value, after) => outcome (next value) after
      | (.error failure, after) => (Except.error failure, after) := by
  change (StateT.bind action.run (ExceptT.bindCont next) collection : Id _).run = _
  change ((ExceptT.bindCont next (outcome action collection).1).run
    (outcome action collection).2).run = _
  generalize outcome action collection = ending
  rcases ending with ⟨result, after⟩
  cases result <;> rfl

/-- An action that ends well has this value and has made these records; it never fails with a
cycle. -/
structure Gathers (context : FileContext) (action : Collecting α) (value : α)
    (records : List Record) : Prop where
  comes : ∀ collection,
    match outcome action collection with
    | (.ok result, after) => result = value ∧ after = collection.replay context records
    | (.error failure, _) => failure.cause.kind ≠ .cyclicComposition

namespace Gathers

variable {context : FileContext}

theorem pure (value : α) : Gathers context (Pure.pure value) value [] :=
  ⟨fun _ => ⟨rfl, by simp [Collection.replay]⟩⟩

theorem fail {location : Location} {cause : Cause} {value : α} {records : List Record}
    (kind : cause.kind ≠ .cyclicComposition) :
    Gathers context (Collect.fail context location cause) value records :=
  ⟨fun _ => kind⟩

theorem update {change : ModuleState → ModuleState} {records : List Record}
    (same : ∀ state, change state = records.foldl (Record.declare context) state)
    (readable : records.filterMap Record.malformed? = []) :
    Gathers context (Collect.update change) () records := by
  refine ⟨fun collection => ⟨rfl, ?_⟩⟩
  rw [Collection.replay, readable, List.append_nil, ← same]

theorem record {change : ModuleState → ModuleState} (record : Record)
    (same : ∀ state, change state = record.declare context state)
    (readable : record.malformed? = none) :
    Gathers context (Collect.update change) () [record] :=
  update same (by simp [readable])

theorem bind {action : Collecting α} {next : α → Collecting β} {first : α} {value : β}
    {records others : List Record} (gathers : Gathers context action first records)
    (rest : Gathers context (next first) value others) :
    Gathers context (action >>= next) value (records ++ others) := by
  refine ⟨fun collection => ?_⟩
  have gathered := gathers.comes collection
  rw [outcome_bind]
  generalize outcome action collection = ending at gathered
  rcases ending with ⟨result, after⟩
  cases result with
  | error failure => exact gathered
  | ok result =>
    rcases gathered with ⟨rfl, rfl⟩
    rw [Collection.replay_append]
    exact rest.comes (collection.replay context records)

theorem give {action : Collecting Unit} {records : List Record}
    (gathers : Gathers context action () records) (value : α) :
    Gathers context (action >>= fun _ => Pure.pure value) value records := by
  rw [← List.append_nil records]
  exact bind gathers (pure value)

theorem forM {items : List ι} {action : ι → Collecting Unit} {records : ι → List Record}
    (step : ∀ item ∈ items, Gathers context (action item) () (records item)) :
    Gathers context (items.forM action) () (items.flatMap records) := by
  induction items with
  | nil => exact pure ()
  | cons item rest induction =>
    change Gathers context (action item >>= fun _ => rest.forM action) _ _
    exact bind (step item List.mem_cons_self)
      (induction fun other member => step other (List.mem_cons_of_mem _ member))

end Gathers

/-! ## The parts of the walk -/

variable (context : FileContext)

theorem gathers_recordImports (specifier : String) (body : List Node) :
    Gathers context (recordImports specifier body) () (importRecords specifier body) := by
  refine .update ?_ ?_
  · intro state
    simp only [importRecords, List.foldl_map, Record.declare]
  · simp [importRecords, Record.malformed?]

theorem gathers_recordExports (body : List Node) :
    Gathers context (recordExports body) () (exportRecords body) := by
  refine .update ?_ ?_
  · intro state
    simp only [exportRecords, List.foldl_map, Record.declare]
  · simp [exportRecords, Record.malformed?]

theorem literals_recordValueImport (state : ModuleState) (reference : ImportReference) :
    (state.recordValueImport reference).literals = state.literals := rfl

/-- The file that values are imported from stays the same while their names are recorded. -/
theorem foldl_recordValueImport (names : List ImportedName) (source : ValueSource)
    (location : Location) (state : ModuleState) :
    names.foldl (fun later name => later.recordValueImport
        ⟨source.specifierIn state, name.imported, name.localName, location⟩) state =
      (names.map (Record.importedValue · source location)).foldl
        (Record.declare context) state := by
  suffices general : ∀ current : ModuleState, current.literals = state.literals →
      names.foldl (fun later name => later.recordValueImport
          ⟨source.specifierIn state, name.imported, name.localName, location⟩) current =
        (names.map (Record.importedValue · source location)).foldl (Record.declare context)
          current from general state rfl
  induction names with
  | nil => exact fun _ _ => rfl
  | cons name rest induction =>
    intro current same
    have specifier : source.specifierIn current = source.specifierIn state := by
      cases source with
      | path => rfl
      | value => simp only [ValueSource.specifierIn, same]
    rw [List.map_cons, List.foldl_cons, List.foldl_cons, induction _ ?_]
    · simp only [Record.declare, specifier]
    · rw [literals_recordValueImport, same]

theorem outcome_valuePath (location : Location) (name : String) (collection : Collection) :
    outcome (valuePath context location name) collection =
        (.ok ((ValueSource.value name).specifierIn collection.state), collection) ∨
      ∃ failure after, outcome (valuePath context location name) collection =
          (.error failure, after) ∧ failure.cause.kind ≠ .cyclicComposition := by
  have unresolved : ∃ failure after, outcome
      (fail context location (.unresolved name "no value with that name holds a path") :
        Collecting String) collection = (.error failure, after) ∧
      failure.cause.kind ≠ .cyclicComposition :=
    ⟨_, _, rfl, (nofun : FailureKind.resolution ≠ .cyclicComposition)⟩
  unfold valuePath
  rw [outcome_bind, ValueSource.specifierIn]
  dsimp only [outcome_get]
  cases collection.state.literals.get? name with
  | none => exact .inr unresolved
  | some literal =>
    dsimp only
    by_cases isValue : literal.isValue
    · rw [if_pos isValue]
      exact .inl rfl
    · rw [if_neg isValue]
      exact .inr unresolved

theorem gathers_recordValue (params : String) (location : Location) :
    Gathers context (recordValue context params location) () (valueRecords params location) := by
  unfold recordValue valueRecords
  cases ValueRule.parse params with
  | none =>
    exact ⟨fun _ => ⟨rfl, by simp [Collection.replay, Record.declare, Record.malformed?]⟩⟩
  | some rule =>
    cases rule with
    | definition name value => exact .record (.literal name _) (fun _ => rfl) rfl
    | imports names source =>
      have readable : (names.map (Record.importedValue · source location)).filterMap
          Record.malformed? = [] := by simp [Record.malformed?]
      cases source with
      | path specifier =>
        exact .bind (.pure specifier) (.update (fun state => foldl_recordValueImport context names
          (.path specifier) location state) readable)
      | value name =>
        refine ⟨fun collection => ?_⟩
        rw [outcome_bind]
        rcases outcome_valuePath context location name collection with found | ⟨_, _, found, plain⟩
        · rw [found]
          refine ⟨rfl, ?_⟩
          rw [Collection.replay, readable, List.append_nil, ← foldl_recordValueImport]
        · rw [found]
          exact plain

/-! ## Heads of rules -/

theorem foldl_declareSegment (segments : List Selector.Segment) (state : ModuleState) :
    segments.foldl (declareSegment context) state =
      (segments.filterMap (segmentRecord? context)).foldl (Record.declare context) state := by
  induction segments generalizing state with
  | nil => rfl
  | cons segment rest induction =>
    rw [List.foldl_cons, induction]
    cases segment with
    | text => rfl
    | name _ name _ isLocal =>
      cases isLocal with
      | true => rfl
      | false => cases exported : context.exportGlobals <;>
          simp [declareSegment, segmentRecord?, Record.declare, exported]

theorem gathers_declareNames (selectors : List AnnotatedSelector) :
    Gathers context (Collect.update (declareNames context selectors)) ()
      (nameRecords context selectors) := by
  refine .update (foldl_declareSegment context _) ?_
  rw [nameRecords, List.filterMap_filterMap, List.filterMap_eq_nil_iff]
  intro segment _
  cases segment with
  | text => rfl
  | name _ name _ isLocal =>
    cases isLocal with
    | true => rfl
    | false => cases exported : context.exportGlobals <;> simp [segmentRecord?, exported,
        Record.malformed?]

theorem gathers_recordCompositions (selector : String) (selectors : List AnnotatedSelector)
    (body : List Node) :
    Gathers context (recordCompositions context selector selectors body) ()
      (compositionRecords selectors body) := by
  unfold recordCompositions compositionRecords
  refine Gathers.forM fun content _ => ?_
  rw [owners]
  cases selectors.mapM AnnotatedSelector.singleLocalClass? with
  | none => exact .fail (by simp [Cause.kind])
  | some owners =>
    refine .update ?_ ?_
    · intro state
      simp only [Option.getD_some, List.foldl_map, Record.declare]
    · simp [Record.malformed?]

theorem gathers_scopeRule {frame : Frame} {selector : String} {selectors : List AnnotatedSelector}
    (annotated : annotateSelectors selector frame.mode = .ok selectors) (body : List Node)
    (location : Location) :
    Gathers context (scopeRule context frame selector body location) selectors
      (nameRecords context selectors ++ compositionRecords selectors body) := by
  unfold scopeRule
  rw [annotated]
  dsimp only
  split
  · exact .fail (by simp [Cause.kind])
  · have compositions := gathers_recordCompositions context selector selectors body
    exact (gathers_declareNames context selectors).bind (compositions.give selectors)

theorem gathers_scopeKeyframes (mode : Mode) (params : String) :
    Gathers context (scopeKeyframes context mode params) (printedHeader context mode params)
      (headerRecords context mode params) := by
  unfold scopeKeyframes printedHeader headerRecords
  by_cases isLocal : (Keyframes.readHeader params mode.isLocal).isLocal
  · simp only [isLocal, ↓reduceIte]
    exact .give (.record (.keyframes _) (fun _ => rfl) rfl) _
  simp only [isLocal, Bool.false_eq_true, ↓reduceIte]
  by_cases isExported : context.exportGlobals && !(((Keyframes.readHeader params
      mode.isLocal).name.toList.head?.map isQuote).getD false)
  · simp only [isExported, ↓reduceIte]
    exact .give (.record (.passed _) (fun _ => rfl) rfl) _
  · simp only [isExported, Bool.false_eq_true, ↓reduceIte]
    exact .pure _

theorem gathers_scopeParams (frame : Frame) (name params : String) :
    Gathers context (scopeParams context frame name params)
      (printedParams context frame name params) (paramsRecords context frame name params) := by
  unfold scopeParams printedParams paramsRecords
  by_cases isKeyframes : Keyframes.isKeyframes name
  · simp only [isKeyframes, ↓reduceIte]
    exact gathers_scopeKeyframes context frame.mode params
  · simp only [isKeyframes, Bool.false_eq_true, ↓reduceIte]
    exact .pure params

/-! ## The walk -/

mutual
theorem gathers_node (frame : Frame) (inRule : Bool) :
    (item : Node) → Gathers context (node context frame inRule item)
      (printedNode context frame inRule item) (nodeRecords context frame item)
  | .rule selector body location => by
    rw [node_rule, printedNode_rule, nodeRecords_rule]
    cases kind : ruleKind frame.mode frame.inKeyframes selector with
    | wrapper mode =>
      dsimp only
      split
      · exact .fail (by simp [Cause.kind])
      · exact gathers_nodes { frame with mode } false body
    | imports specifier => exact .give (gathers_recordImports context specifier body) []
    | exports => exact .give (gathers_recordExports context body) []
    | step => exact .pure _
    | refused nested => exact .fail (by simp [Cause.kind])
    | ordinary selectors =>
      refine .bind (gathers_scopeRule context (annotated_of_ordinary kind) body location) ?_
      rw [← List.append_nil (nodesRecords context (frame.inRule selectors) body)]
      exact .bind (gathers_nodes (frame.inRule selectors) true body) (.pure _)
  | .block name params body location => by
    unfold node printedNode nodeRecords
    by_cases isValue : isValueRule name
    · simp only [isValue, ↓reduceIte]
      exact .give (gathers_recordValue context params location) []
    · simp only [isValue, Bool.false_eq_true, ↓reduceIte]
      refine .bind (gathers_scopeParams context frame name params) ?_
      rw [← List.append_nil (nodesRecords context _ body)]
      exact .bind (gathers_nodes _ false body) (.pure _)
  | .statement name params location => by
    unfold node printedNode nodeRecords
    by_cases isValue : isValueRule name
    · simp only [isValue, ↓reduceIte]
      exact .give (gathers_recordValue context params location) []
    · simp only [isValue, Bool.false_eq_true, ↓reduceIte]
      rw [← List.append_nil (paramsRecords context frame name params)]
      exact .bind (gathers_scopeParams context frame name params) (.pure _)
  | .declaration content => .pure _
  | .comment text location => .pure _

theorem gathers_nodes (frame : Frame) (inRule : Bool) :
    (items : List Node) → Gathers context (nodes context frame inRule items)
      (printedNodes context frame inRule items) (nodesRecords context frame items)
  | [] => .pure []
  | first :: rest => by
    refine .bind (gathers_node frame inRule first) ?_
    rw [← List.append_nil (nodesRecords context frame rest)]
    exact .bind (gathers_nodes frame inRule rest) (.pure _)
end

def sheetRecords (sheet : Stylesheet) : List Record :=
  nodesRecords context ⟨context.mode, false, false⟩ sheet

/-- What is printed of a sheet, before anything is substituted in it. -/
def printedSheet (sheet : Stylesheet) : Stylesheet :=
  printedNodes context ⟨context.mode, false, false⟩ false sheet

/-- The state of a file once its declarations have been made. -/
def declaredState (sheet : Stylesheet) : ModuleState :=
  (sheetRecords context sheet).foldl (Record.declare context) .empty

/-- A sheet that is collected declares its records, settles the literals that need no import, and
is printed as it stands. -/
theorem run_of_ok {sheet kept : Stylesheet} (collected : (run context sheet).1 = .ok kept) :
    kept = printedSheet context sheet ∧
      (run context sheet).2.state =
        (declaredState context sheet).settleLiterals
          ((declaredState context sheet).imports.map ImportReference.localName) := by
  have gathered := (gathers_nodes context ⟨context.mode, false, false⟩ false sheet).comes .empty
  unfold run Collect.sheet at *
  change (outcome (_ >>= _) Collection.empty).1 = _ at collected
  change _ ∧ (outcome (_ >>= _) Collection.empty).2.state = _
  rw [outcome_bind] at *
  generalize outcome (nodes context ⟨context.mode, false, false⟩ false sheet) .empty = ending
    at gathered collected
  rcases ending with ⟨result, after⟩
  cases result with
  | error failure => cases collected
  | ok value =>
    rcases gathered with ⟨rfl, rfl⟩
    cases collected
    exact ⟨rfl, rfl⟩

theorem kind_of_error {sheet : Stylesheet} {failure : Failure}
    (failed : (run context sheet).1 = .error failure) :
    failure.cause.kind ≠ .cyclicComposition := by
  have gathered := (gathers_nodes context ⟨context.mode, false, false⟩ false sheet).comes .empty
  unfold run Collect.sheet at failed
  change (outcome (_ >>= _) Collection.empty).1 = _ at failed
  rw [outcome_bind] at failed
  generalize outcome (nodes context ⟨context.mode, false, false⟩ false sheet) .empty = ending
    at gathered failed
  rcases ending with ⟨result, after⟩
  cases result with
  | error other =>
    cases failed
    exact gathered
  | ok value => cases failed

end Collect

end ScopedStyles
