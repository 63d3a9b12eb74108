import ScopedStyles.Proofs.Module.Development
import ScopedStyles.Proofs.Module.Records

/-!
Where the things that a file declares stand in its sheet. Every composition and every import that is
collected has the location of a declaration or an at-rule of the sheet, and so has every failure of
the walk, which names the file itself.
-/

namespace ScopedStyles

/-! ## Places in a sheet -/

namespace Node

mutual
/-- The locations of a node and the nodes inside it, comments left out. -/
def places : Node → List Location
  | .rule _ body location | .block _ _ body location => location :: placesAll body
  | .statement _ _ location => [location]
  | .declaration content => [content.location]
  | .comment .. => []

/-- The locations of the rules, at-rules and declarations of a sheet. -/
def placesAll : List Node → List Location
  | [] => []
  | first :: rest => places first ++ placesAll rest
end

end Node

theorem mem_placesAll_of_mem_declarationsOf {body : List Node} {content : Declaration}
    (member : content ∈ declarationsOf body) : content.location ∈ Node.placesAll body := by
  induction body with
  | nil => cases member
  | cons first rest induction =>
    rw [Node.placesAll]
    cases first with
    | declaration other =>
      rcases List.mem_cons.mp member with rfl | member
      · exact List.mem_append_left _ List.mem_cons_self
      · exact List.mem_append_right _ (induction member)
    | rule | block | statement | comment => exact List.mem_append_right _ (induction member)

namespace ModuleState

/-- The compositions and imports of a state have been declared at these places. -/
structure LocatedIn (places : List Location) (state : ModuleState) : Prop where
  compositions : ∀ owner, ∀ composition ∈ state.compositionsOf owner, composition.location ∈ places
  imports : ∀ reference ∈ state.imports, reference.location ∈ places

namespace LocatedIn

variable {places : List Location} {state : ModuleState}

theorem empty : LocatedIn places .empty :=
  ⟨nofun, nofun⟩

theorem congr {later : ModuleState} (located : state.LocatedIn places)
    (compositions : later.compositions = state.compositions)
    (imports : later.imports = state.imports) : later.LocatedIn places := by
  refine ⟨fun owner => ?_, ?_⟩
  · rw [compositionsOf, compositions]
    exact located.compositions owner
  · rw [imports]
    exact located.imports

theorem same {later : ModuleState} (located : state.LocatedIn places)
    (same : state.SameDeclarations later) : later.LocatedIn places :=
  located.congr same.compositions same.imports

theorem foldl {change : ModuleState → ι → ModuleState} {items : List ι}
    (step : ∀ item ∈ items, ∀ state : ModuleState, state.LocatedIn places →
      (change state item).LocatedIn places) (located : state.LocatedIn places) :
    (items.foldl change state).LocatedIn places := by
  induction items generalizing state with
  | nil => exact located
  | cons item rest induction =>
    refine induction (fun other member => step other (List.mem_cons_of_mem _ member)) ?_
    exact step item List.mem_cons_self state located

theorem recordImport {reference : ImportReference} (located : state.LocatedIn places)
    (place : reference.location ∈ places) : (state.recordImport reference).LocatedIn places where
  compositions := located.compositions
  imports other member := by
    rcases List.mem_append.mp member with earlier | last
    · exact located.imports other earlier
    · exact List.mem_singleton.mp last ▸ place

theorem recordValueImport {reference : ImportReference} (located : state.LocatedIn places)
    (place : reference.location ∈ places) :
    (state.recordValueImport reference).LocatedIn places where
  compositions := located.compositions
  imports := (located.recordImport place).imports

theorem recordComposition {composition : Composition} {owner : String}
    (located : state.LocatedIn places) (place : composition.location ∈ places) :
    (state.recordComposition composition owner).LocatedIn places where
  compositions other added member := by
    have recorded : (state.recordComposition composition owner).compositionsOf other =
        if other = owner then state.compositionsOf owner ++ [composition]
        else state.compositionsOf other := by
      rw [compositionsOf, ModuleState.recordComposition, await, OrderedMap.get?_insert]
      split <;> rfl
    rw [recorded] at member
    split at member
    · rcases List.mem_append.mp member with earlier | last
      · exact located.compositions owner added earlier
      · exact List.mem_singleton.mp last ▸ place
    · exact located.compositions other added member
  imports := located.imports

end LocatedIn

end ModuleState

namespace Collect

/-! ## What a walk keeps -/

/-- An action on the collection of a file records at these places only, and fails at one of them in
the name of the file. -/
def Locates (context : FileContext) (places : List Location) (action : Collecting α) : Prop :=
  ∀ collection : Collection, collection.state.LocatedIn places →
    (outcome action collection).2.state.LocatedIn places ∧
      ∀ failure, (outcome action collection).1 = .error failure →
        failure.file = context.path ∧ failure.location ∈ places

namespace Locates

variable {context : FileContext} {places : List Location}

theorem pure (value : α) : Locates context places (Pure.pure value) :=
  fun _ located => ⟨located, nofun⟩

theorem fail {location : Location} (place : location ∈ places) (cause : Cause) :
    Locates context places (Collect.fail context location cause : Collecting α) := by
  intro _ located
  refine ⟨located, fun failure failed => ?_⟩
  cases failed
  exact ⟨rfl, place⟩

theorem update {change : ModuleState → ModuleState}
    (keeps : ∀ state : ModuleState, state.LocatedIn places → (change state).LocatedIn places) :
    Locates context places (Collect.update change) :=
  fun collection located => ⟨keeps collection.state located, nofun⟩

theorem get : Locates context places (MonadState.get : Collecting Collection) :=
  fun _ located => ⟨located, nofun⟩

theorem bind {action : Collecting α} {next : α → Collecting β}
    (first : Locates context places action) (rest : ∀ value, Locates context places (next value)) :
    Locates context places (action >>= next) := by
  intro collection located
  have firstLocated := first collection located
  rw [outcome_bind]
  generalize outcome action collection = ending at firstLocated
  rcases ending with ⟨result, after⟩
  cases result with
  | ok value => exact rest value after firstLocated.1
  | error failure =>
    refine ⟨firstLocated.1, fun other failed => ?_⟩
    cases failed
    exact firstLocated.2 failure rfl

theorem forM {items : List ι} {action : ι → Collecting Unit}
    (step : ∀ item ∈ items, Locates context places (action item)) :
    Locates context places (items.forM action) := by
  induction items with
  | nil => exact pure ()
  | cons item rest induction =>
    change Locates context places (action item >>= fun _ => rest.forM action)
    exact (step item List.mem_cons_self).bind fun _ =>
      induction fun other member => step other (List.mem_cons_of_mem _ member)

end Locates

/-! ## The parts of the walk -/

variable {context : FileContext} {places : List Location}

theorem locates_recordImports {specifier : String} {body : List Node}
    (inside : Node.placesAll body ⊆ places) :
    Locates context places (recordImports specifier body) := by
  refine .update fun state located => .foldl (fun reference member state located => ?_) located
  obtain ⟨content, declared, read⟩ := List.mem_filterMap.mp member
  have location : reference.location = content.location := by
    simp only [importReference?] at read
    split at read
    · cases read
    · cases read
      rfl
  refine located.recordImport ?_
  rw [location]
  exact inside (mem_placesAll_of_mem_declarationsOf declared)

theorem locates_recordExports (body : List Node) :
    Locates context places (recordExports body) :=
  .update fun _ located => .foldl (fun _ _ _ located => located.congr rfl rfl) located

theorem locates_recordValue {location : Location} (place : location ∈ places) (params : String) :
    Locates context places (recordValue context params location) := by
  unfold recordValue
  split
  · exact fun _ located => ⟨located, nofun⟩
  · exact .update fun _ located => located.congr rfl rfl
  · rename_i names source _
    have recorded (specifier : String) : Locates context places (Collect.update fun state =>
        names.foldl (fun state name => state.recordValueImport
          ⟨specifier, name.imported, name.localName, location⟩) state) :=
      .update fun _ located =>
        .foldl (fun _ _ _ located => located.recordValueImport place) located
    cases source with
    | path specifier => exact .bind (.pure specifier) recorded
    | value name =>
      refine .bind ?_ recorded
      unfold valuePath
      refine .bind .get fun collection => ?_
      split
      · split
        · exact .pure _
        · exact .fail place _
      · exact .fail place _

theorem locates_recordCompositions {selector : String} {selectors : List AnnotatedSelector}
    {body : List Node} (inside : Node.placesAll body ⊆ places) :
    Locates context places (recordCompositions context selector selectors body) := by
  refine .forM fun content member => ?_
  have place := inside (mem_placesAll_of_mem_declarationsOf (List.mem_filter.mp member).1)
  split
  · exact .fail place _
  · exact .update fun _ located =>
      .foldl (fun _ _ _ located => located.recordComposition place) located

theorem same_declareSegment (state : ModuleState) (segment : Selector.Segment) :
    (declareSegment context state segment).compositions = state.compositions ∧
      (declareSegment context state segment).imports = state.imports := by
  unfold declareSegment
  split
  · exact ⟨rfl, rfl⟩
  · split <;> exact ⟨rfl, rfl⟩
  · exact ⟨rfl, rfl⟩

theorem locates_scopeRule {frame : Frame} {selector : String} {body : List Node}
    {location : Location} (place : location ∈ places) (inside : Node.placesAll body ⊆ places) :
    Locates context places (scopeRule context frame selector body location) := by
  unfold scopeRule
  split
  · exact .fail place _
  · split
    · exact .fail place _
    · refine .bind (.update fun _ located => .foldl (fun segment _ state located => ?_) located)
        fun _ => .bind (locates_recordCompositions inside) fun _ => .pure _
      obtain ⟨compositions, imports⟩ := same_declareSegment state segment
      exact located.congr compositions imports

theorem locates_scopeParams (frame : Frame) (name params : String) :
    Locates context places (scopeParams context frame name params) := by
  unfold scopeParams
  split
  · unfold scopeKeyframes
    dsimp only
    split
    · exact .bind (.update fun _ located => located.congr rfl rfl) fun _ => .pure _
    · split
      · exact .bind (.update fun _ located => located.congr rfl rfl) fun _ => .pure _
      · exact .pure _
  · exact .pure params

/-! ## The walk -/

mutual
theorem locates_node (frame : Frame) (inRule : Bool) :
    (item : Node) → item.places ⊆ places → Locates context places (node context frame inRule item)
  | .rule selector body location => fun inside => by
    rw [Node.places] at inside
    obtain ⟨place, inside⟩ := List.cons_subset.mp inside
    rw [node_rule]
    cases ruleKind frame.mode frame.inKeyframes selector with
    | wrapper mode =>
      dsimp only
      split
      · exact .fail place _
      · exact locates_nodes { frame with mode } false body inside
    | imports specifier => exact .bind (locates_recordImports inside) fun _ => .pure _
    | exports => exact .bind (locates_recordExports body) fun _ => .pure _
    | step => exact .pure _
    | refused nested => exact .fail place _
    | ordinary _ =>
      exact .bind (locates_scopeRule place inside) fun selectors =>
        .bind (locates_nodes (frame.inRule selectors) true body inside) fun _ => .pure _
  | .block name params body location => fun inside => by
    rw [Node.places] at inside
    obtain ⟨place, inside⟩ := List.cons_subset.mp inside
    unfold node
    split
    · exact .bind (locates_recordValue place params) fun _ => .pure _
    · exact .bind (locates_scopeParams frame name params) fun _ =>
        .bind (locates_nodes _ _ body inside) fun _ => .pure _
  | .statement name params location => fun inside => by
    have place := inside List.mem_cons_self
    unfold node
    split
    · exact .bind (locates_recordValue place params) fun _ => .pure _
    · exact .bind (locates_scopeParams frame name params) fun _ => .pure _
  | .declaration _ => fun _ => .pure _
  | .comment .. => fun _ => .pure _

theorem locates_nodes (frame : Frame) (inRule : Bool) :
    (items : List Node) → Node.placesAll items ⊆ places →
      Locates context places (nodes context frame inRule items)
  | [] => fun _ => .pure []
  | first :: rest => fun inside => by
    rw [Node.placesAll] at inside
    obtain ⟨here, later⟩ := List.append_subset.mp inside
    exact .bind (locates_node frame inRule first here) fun _ =>
      .bind (locates_nodes frame inRule rest later) fun _ => .pure _
end

/-- What is collected from a sheet stands in it, and so does a failure to collect it. -/
theorem locates_run (context : FileContext) (sheet : Stylesheet) :
    (run context sheet).2.state.LocatedIn (Node.placesAll sheet) ∧
      ∀ failure, (run context sheet).1 = .error failure →
        failure.file = context.path ∧ failure.location ∈ Node.placesAll sheet := by
  have walked : Locates context (Node.placesAll sheet) (Collect.sheet context sheet) :=
    .bind (locates_nodes _ _ sheet (List.Subset.refl _)) fun _ => .bind
      (.update fun state located =>
        located.same (ModuleState.sameDeclarations_settleLiterals state _)) fun _ => .pure _
  exact walked .empty .empty

end Collect

end ScopedStyles
