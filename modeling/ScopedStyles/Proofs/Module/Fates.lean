import ScopedStyles.Proofs.Module.Records
import ScopedStyles.Proofs.Sheet.Contents

/-!
What becomes of the declarations that compose. Outside keyframes each of them is owned by the rule
that it stands in directly, disappears with the rule of records around it, or stays in the sheet.
When a file is collected, the owned ones have been recorded for all their owners, and the sheet
keeps those that stay and no other.
-/

namespace ScopedStyles

open Text

/-- What becomes of a declaration that composes. -/
inductive Fate where
  /-- It stays in the sheet: it does not stand directly in a rule that is scoped. -/
  | stays
  /-- It stands directly in a rule with these selectors. -/
  | owned (selectors : List AnnotatedSelector)
  /-- It stands in a rule that only holds records. -/
  | dropped
deriving DecidableEq, Repr

namespace Fate

def isStaying : Fate → Bool
  | .stays => true
  | _ => false

/-- The fate of a declaration directly in a rule, or elsewhere. -/
def ofHolder : Option (List AnnotatedSelector) → Fate
  | some selectors => .owned selectors
  | none => .stays

end Fate

namespace Collect

/-- Everything in a rule of records is dropped. -/
def dropAll (body : List Node) : List (Declaration × Fate) :=
  (Node.composing body).map (·, .dropped)

mutual
/-- The declarations in a node that compose, with their fates; `holder` has the selectors of the
rule that the node stands in directly. -/
def fates (mode : Mode) (holder : Option (List AnnotatedSelector)) :
    Node → List (Declaration × Fate)
  | .rule selector body _ =>
    match Mode.ofBlockSelector? selector with
    | some mode => fatesAll mode none body
    | none =>
      match importSpecifier? selector with
      | some _ => dropAll body
      | none =>
        if trim selector = ":export" then dropAll body
        else
          match annotateSelectors selector mode with
          | .error _ => dropAll body
          | .ok selectors => fatesAll mode (some selectors) body
  | .block name _ body _ =>
    if isValueRule name then dropAll body
    else if Keyframes.isKeyframes name then []
    else fatesAll mode none body
  | .statement .. | .comment .. => []
  | .declaration content =>
    if Composition.isComposing content then [(content, .ofHolder holder)] else []

def fatesAll (mode : Mode) (holder : Option (List AnnotatedSelector)) :
    List Node → List (Declaration × Fate)
  | [] => []
  | first :: rest => fates mode holder first ++ fatesAll mode holder rest
end

theorem fates_rule {inKeyframes : Bool} (outside : inKeyframes = false) (mode : Mode)
    (holder : Option (List AnnotatedSelector)) (selector : String) (body : List Node)
    (location : Location) :
    fates mode holder (.rule selector body location) =
      match ruleKind mode inKeyframes selector with
      | .wrapper mode => fatesAll mode none body
      | .imports _ | .exports | .step | .refused _ => dropAll body
      | .ordinary selectors => fatesAll mode (some selectors) body := by
  unfold fates
  generalize isKind : ruleKind mode inKeyframes selector = kind
  cases of_ruleKind isKind <;> simp_all

theorem map_fst_dropAll (body : List Node) :
    (dropAll body).map Prod.fst = Node.composing body := by
  rw [dropAll, List.map_map]
  exact List.map_id' _

theorem not_isKeyframes_of_isValueRule {name : String} (isValue : isValueRule name) :
    Keyframes.isKeyframes name = false := by
  have spelled : lowerAscii name = "value" := by simpa [isValueRule] using isValue
  rw [Keyframes.isKeyframes, spelled]
  decide

mutual
theorem map_fst_fates (mode : Mode) (holder : Option (List AnnotatedSelector)) :
    (node : Node) → (fates mode holder node).map Prod.fst = Node.composing [node]
  | .rule selector body location => by
    rw [fates_rule rfl, Node.composing_rule]
    cases ruleKind mode false selector with
    | wrapper inner => exact map_fst_fatesAll inner none body
    | imports _ | exports | step | refused _ => exact map_fst_dropAll body
    | ordinary selectors => exact map_fst_fatesAll mode (some selectors) body
  | .block name params body location => by
    unfold fates
    rw [Node.composing_block]
    split
    · rename_i isValue
      rw [not_isKeyframes_of_isValueRule isValue]
      exact map_fst_dropAll body
    · split
      · rfl
      · exact map_fst_fatesAll mode none body
  | .statement .. | .comment .. => rfl
  | .declaration content => by
    rw [fates, Node.composing_declaration]
    split <;> rfl

theorem map_fst_fatesAll (mode : Mode) (holder : Option (List AnnotatedSelector)) :
    (nodes : List Node) → (fatesAll mode holder nodes).map Prod.fst = Node.composing nodes
  | [] => rfl
  | first :: rest => by
    rw [fatesAll, List.map_append, map_fst_fates mode holder first,
      map_fst_fatesAll mode holder rest, ← Node.composing_append]
    rfl
end

/-! ## What stays -/

def staying (fates : List (Declaration × Fate)) : List Declaration :=
  (fates.filter (·.2.isStaying)).map Prod.fst

theorem staying_append (first second : List (Declaration × Fate)) :
    staying (first ++ second) = staying first ++ staying second := by
  simp [staying]

theorem staying_dropAll (body : List Node) : staying (dropAll body) = [] := by
  simp [staying, dropAll, List.filter_map, Fate.isStaying, Function.comp_def]

variable (context : FileContext)

mutual
theorem composing_printedNode (mode : Mode) (inPureRule : Bool)
    (holder : Option (List AnnotatedSelector)) :
    (node : Node) →
      Node.composing (printedNode context ⟨mode, inPureRule, false⟩ holder.isSome node) =
        staying (fates mode holder node)
  | .rule selector body location => by
    rw [printedNode_rule, fates_rule rfl]
    cases kind : ruleKind mode false selector with
    | wrapper inner => exact composing_printedNodes inner inPureRule none body
    | imports _ | exports | refused _ => exact (staying_dropAll body).symm
    | step => exact absurd kind (ruleKind_ne_step rfl)
    | ordinary selectors =>
      dsimp only
      rw [Node.composing_rule]
      exact composing_printedNodes mode _ (some selectors) body
  | .block name params body location => by
    unfold printedNode fates
    by_cases isValue : isValueRule name
    · rw [if_pos isValue, if_pos isValue]
      exact (staying_dropAll body).symm
    · rw [if_neg isValue, if_neg isValue, Node.composing_block]
      cases isKeyframes : Keyframes.isKeyframes name with
      | true => rfl
      | false => exact composing_printedNodes mode inPureRule none body
  | .statement name params location => by
    unfold printedNode
    split <;> rfl
  | .comment text location => rfl
  | .declaration content => by
    unfold printedNode fates
    cases holder <;> cases composes : Composition.isComposing content <;>
      simp [composes, staying, Fate.ofHolder, Fate.isStaying]

/-- What is printed of a list of nodes has the declarations that stay, and no other that
composes. -/
theorem composing_printedNodes (mode : Mode) (inPureRule : Bool)
    (holder : Option (List AnnotatedSelector)) :
    (nodes : List Node) →
      Node.composing (printedNodes context ⟨mode, inPureRule, false⟩ holder.isSome nodes) =
        staying (fatesAll mode holder nodes)
  | [] => rfl
  | first :: rest => by
    rw [printedNodes, Node.composing_append, composing_printedNode mode inPureRule holder first,
      composing_printedNodes mode inPureRule holder rest, fatesAll, staying_append]
end

/-! ## Rules of values -/

mutual
theorem valueRules_printedNode (frame : Frame) (outside : frame.inKeyframes = false)
    (inRule : Bool) :
    (node : Node) → Node.valueRules (printedNode context frame inRule node) = []
  | .rule selector body location => by
    rw [printedNode_rule]
    cases kind : ruleKind frame.mode frame.inKeyframes selector with
    | wrapper mode => exact valueRules_printedNodes { frame with mode } outside false body
    | imports _ | exports | refused _ => rfl
    | step => exact absurd kind (ruleKind_ne_step outside)
    | ordinary selectors =>
      have inside := valueRules_printedNodes (frame.inRule selectors) rfl true body
      simpa [Node.valueRules, Node.contentsAll, Node.contents] using inside
  | .block name params body location => by
    unfold printedNode
    rw [outside]
    split
    · rfl
    rename_i noValue
    cases isKeyframes : Keyframes.isKeyframes name with
    | true => simp [Node.valueRules, Node.contentsAll, Node.contents, isKeyframes, noValue,
        Node.Content.atRule?]
    | false =>
      have inside := valueRules_printedNodes { frame with inKeyframes := false } rfl false body
      simpa [Node.valueRules, Node.contentsAll, Node.contents, isKeyframes, noValue,
        Node.Content.atRule?] using inside
  | .statement name params location => by
    unfold printedNode
    split
    · rfl
    · rename_i noValue
      simp [Node.valueRules, Node.contentsAll, Node.contents, noValue, Node.Content.atRule?]
  | .declaration content => by
    unfold printedNode
    split <;> rfl
  | .comment text location => rfl

theorem valueRules_printedNodes (frame : Frame) (outside : frame.inKeyframes = false)
    (inRule : Bool) :
    (nodes : List Node) → Node.valueRules (printedNodes context frame inRule nodes) = []
  | [] => rfl
  | first :: rest => by
    rw [printedNodes, Node.valueRules_append, valueRules_printedNode frame outside inRule first,
      valueRules_printedNodes frame outside inRule rest]
    rfl
end

/-! ## What is owned -/

/-- A composition has been recorded for the class of every selector of its rule. -/
def RecordedFor (records : List Record) (selectors : List AnnotatedSelector)
    (content : Declaration) : Prop :=
  ∃ owners, selectors.mapM AnnotatedSelector.singleLocalClass? = some owners ∧
    ∀ owner ∈ owners, .composition owner (.ofDeclaration content) ∈ records

theorem RecordedFor.mono {records others : List Record} {selectors : List AnnotatedSelector}
    {content : Declaration} (recorded : RecordedFor records selectors content)
    (less : records ⊆ others) : RecordedFor others selectors content := by
  obtain ⟨owners, single, made⟩ := recorded
  exact ⟨owners, single, fun owner member => less (made owner member)⟩

theorem exists_of_bind_eq_ok {action : Collecting α} {next : α → Collecting β}
    {collection after : Collection} {value : β}
    (ends : outcome (action >>= next) collection = (.ok value, after)) :
    ∃ first middle, outcome action collection = (.ok first, middle) ∧
      outcome (next first) middle = (.ok value, after) := by
  rw [outcome_bind] at ends
  generalize outcome action collection = ending at ends
  obtain ⟨result, middle⟩ := ending
  cases result with
  | ok first => exact ⟨first, middle, rfl, ends⟩
  | error failure => cases ends

/-- Where the selectors of a rule are not all single classes, its first composition is refused. -/
theorem outcome_recordCompositions_of_none {selector : String}
    {selectors : List AnnotatedSelector} {body : List Node} {content : Declaration}
    {rest : List Declaration}
    (composing : (declarationsOf body).filter Composition.isComposing = content :: rest)
    (noOwners : selectors.mapM AnnotatedSelector.singleLocalClass? = none)
    (collection : Collection) :
    outcome (recordCompositions context selector selectors body) collection =
      (.error ⟨context.path, content.location, .invalidComposition selector⟩, collection) := by
  rw [recordCompositions, composing, noOwners]
  rfl

theorem owners_of_scopeRule {frame : Frame} {selector : String} {body : List Node}
    {location : Location} {selectors scopedSelectors : List AnnotatedSelector}
    {collection after : Collection}
    (annotated : annotateSelectors selector frame.mode = .ok selectors)
    (scopes : outcome (scopeRule context frame selector body location) collection =
      (.ok scopedSelectors, after)) :
    scopedSelectors = selectors ∧
      ∀ content ∈ declarationsOf body, Composition.isComposing content →
        ∃ owners, selectors.mapM AnnotatedSelector.singleLocalClass? = some owners := by
  unfold scopeRule at scopes
  rw [annotated] at scopes
  dsimp only at scopes
  split at scopes
  · cases scopes
  obtain ⟨_, middle, _, rest⟩ := exists_of_bind_eq_ok scopes
  obtain ⟨_, _, recorded, same⟩ := exists_of_bind_eq_ok rest
  refine ⟨by cases same; rfl, fun content inside composes => ?_⟩
  cases single : selectors.mapM AnnotatedSelector.singleLocalClass? with
  | some owners => exact ⟨owners, rfl⟩
  | none =>
    have member := List.mem_filter.mpr ⟨inside, composes⟩
    obtain ⟨first, others, composing⟩ := List.exists_cons_of_ne_nil (List.ne_nil_of_mem member)
    rw [outcome_recordCompositions_of_none context composing single] at recorded
    cases recorded

theorem recordedFor_rule {selectors : List AnnotatedSelector} {body : List Node}
    {content : Declaration} {owners : List String}
    (single : selectors.mapM AnnotatedSelector.singleLocalClass? = some owners)
    (inside : content ∈ declarationsOf body) (composes : Composition.isComposing content) :
    RecordedFor (compositionRecords selectors body) selectors content := by
  refine ⟨owners, single, fun owner member => List.mem_flatMap.mpr ⟨content, ?_, ?_⟩⟩
  · exact List.mem_filter.mpr ⟨inside, composes⟩
  · rw [Collect.owners, single]
    exact List.mem_map_of_mem member

theorem not_owned_of_dropAll {content : Declaration} {selectors : List AnnotatedSelector}
    {body : List Node} (member : (content, .owned selectors) ∈ dropAll body) : False := by
  obtain ⟨_, _, equal⟩ := List.mem_map.mp member
  cases equal

theorem isComposing_of_fates {mode : Mode} {holder : Option (List AnnotatedSelector)}
    {nodes : List Node} {entry : Declaration × Fate}
    (member : entry ∈ fatesAll mode holder nodes) : Composition.isComposing entry.1 := by
  have composes : entry.1 ∈ Node.composing nodes := by
    rw [← map_fst_fatesAll mode holder]
    exact List.mem_map_of_mem member
  exact (List.mem_filter.mp composes).2

/-- A rule that is scoped records the compositions in it, if those deeper inside are recorded. -/
theorem recorded_ordinaryRule {frame : Frame} {selector : String} {body : List Node}
    {location : Location} {own selectors : List AnnotatedSelector} {content : Declaration}
    {collection after : Collection} {kept : List Node}
    (annotated : annotateSelectors selector frame.mode = .ok own)
    (ends : outcome (ordinaryRule context frame selector body location) collection =
      (.ok kept, after))
    (member : (content, .owned selectors) ∈ fatesAll frame.mode (some own) body)
    (inside : ∀ {start middle : Collection} {rest : List Node},
      outcome (nodes context (frame.inRule own) true body) start = (.ok rest, middle) →
      (content, .owned selectors) ∈ fatesAll frame.mode (some own) body →
      content ∈ declarationsOf body ∧ some own = some selectors ∨
        RecordedFor (nodesRecords context (frame.inRule own) body) selectors content) :
    RecordedFor (nameRecords context own ++ compositionRecords own body ++
      nodesRecords context (frame.inRule own) body) selectors content := by
  obtain ⟨_, middle, scopes, rest⟩ := exists_of_bind_eq_ok ends
  obtain ⟨rfl, owners⟩ := owners_of_scopeRule context annotated scopes
  obtain ⟨_, _, walks, _⟩ := exists_of_bind_eq_ok rest
  rcases inside walks member with ⟨direct, isOwn⟩ | recorded
  · cases isOwn
    have composes := isComposing_of_fates member
    obtain ⟨_, single⟩ := owners content direct composes
    apply (recordedFor_rule single direct composes).mono
    exact fun _ own => List.mem_append_left _ (List.mem_append_right _ own)
  · exact recorded.mono (List.subset_append_right _ _)

mutual
/-- The compositions that a node owns have been recorded when it has been collected, except those
that the rule around it owns. -/
theorem recorded_node (frame : Frame) (outside : frame.inKeyframes = false)
    (holder : Option (List AnnotatedSelector)) {collection after : Collection}
    {content : Declaration} {selectors : List AnnotatedSelector} {kept : List Node} :
    (item : Node) → outcome (node context frame holder.isSome item) collection = (.ok kept, after) →
      (content, .owned selectors) ∈ fates frame.mode holder item →
      item = .declaration content ∧ holder = some selectors ∨
        RecordedFor (nodeRecords context frame item) selectors content
  | .rule selector body location => by
    rw [node_rule, fates_rule outside, nodeRecords_rule]
    cases kind : ruleKind frame.mode frame.inKeyframes selector with
    | wrapper mode =>
      dsimp only
      split
      · exact fun ends => nomatch ends
      · intro ends member
        have inside := recorded_nodes { frame with mode } outside none body ends member
        exact .inr (inside.resolve_left fun own => nomatch own.2)
    -- Rules of records drop what is in them, so nothing in them is owned.
    | imports _ | exports | step | refused _ =>
      exact fun _ member => (not_owned_of_dropAll member).elim
    | ordinary own =>
      intro ends member
      have annotated := annotated_of_ordinary kind
      refine .inr (recorded_ordinaryRule context annotated ends member fun walks inside => ?_)
      exact recorded_nodes (frame.inRule own) rfl (some own) body walks inside
  | .block name params body location => by
    unfold node fates nodeRecords
    by_cases isValue : isValueRule name
    · rw [if_pos isValue, if_pos isValue]
      exact fun _ member => (not_owned_of_dropAll member).elim
    rw [if_neg isValue, if_neg isValue, if_neg isValue, outside]
    cases Keyframes.isKeyframes name with
    | true => exact fun _ member => absurd member List.not_mem_nil
    | false =>
      intro ends member
      obtain ⟨_, _, _, rest⟩ := exists_of_bind_eq_ok ends
      obtain ⟨_, _, walks, _⟩ := exists_of_bind_eq_ok rest
      have inside := recorded_nodes { frame with inKeyframes := false } rfl none body walks member
      have recorded := inside.resolve_left fun own => nomatch own.2
      exact .inr (recorded.mono (List.subset_append_right _ _))
  | .statement .. => fun _ member => absurd member List.not_mem_nil
  | .comment .. => fun _ member => absurd member List.not_mem_nil
  | .declaration other => by
    intro _ member
    unfold fates at member
    split at member
    · obtain ⟨rfl, fate⟩ := Prod.mk.inj (List.mem_singleton.mp member)
      cases holder with
      | none => cases fate
      | some own =>
        cases fate
        exact .inl ⟨rfl, rfl⟩
    · cases member

theorem recorded_nodes (frame : Frame) (outside : frame.inKeyframes = false)
    (holder : Option (List AnnotatedSelector)) {collection after : Collection}
    {content : Declaration} {selectors : List AnnotatedSelector} {kept : List Node} :
    (items : List Node) →
      outcome (nodes context frame holder.isSome items) collection = (.ok kept, after) →
      (content, .owned selectors) ∈ fatesAll frame.mode holder items →
      content ∈ declarationsOf items ∧ holder = some selectors ∨
        RecordedFor (nodesRecords context frame items) selectors content
  | [] => fun _ member => absurd member List.not_mem_nil
  | first :: rest => by
    intro ends member
    obtain ⟨_, _, walks, behind⟩ := exists_of_bind_eq_ok ends
    obtain ⟨_, _, walksRest, _⟩ := exists_of_bind_eq_ok behind
    rcases List.mem_append.mp member with member | member
    · rcases recorded_node frame outside holder first walks member with ⟨rfl, isOwn⟩ | recorded
      · exact .inl ⟨List.mem_cons_self, isOwn⟩
      · exact .inr (recorded.mono (List.subset_append_left _ _))
    · rcases recorded_nodes frame outside holder rest walksRest member with
        ⟨direct, isOwn⟩ | recorded
      · refine .inl ⟨?_, isOwn⟩
        obtain ⟨node, inRest, isDeclaration⟩ := List.mem_filterMap.mp direct
        exact List.mem_filterMap.mpr ⟨node, List.mem_cons_of_mem _ inRest, isDeclaration⟩
      · exact .inr (recorded.mono (List.subset_append_right _ _))
end

end Collect

end ScopedStyles
