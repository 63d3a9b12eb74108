import ScopedStyles.Proofs.Module.Introductions
import ScopedStyles.Proofs.Sheet.Heads

/-!
The heads of a file as the first pass marks them: the annotated selectors of the rules that are
scoped, and the headers of keyframes. The printed sheet has these heads, rendered; and each of
their local names is scoped by a record of the file.
-/

namespace ScopedStyles

open Text

namespace Collect

inductive MarkedHead where
  | rule (selectors : List AnnotatedSelector)
  | keyframes (name : String) (header : Keyframes.Header)
deriving DecidableEq, Repr

namespace MarkedHead

def localNames : MarkedHead → List String
  | .rule selectors => selectors.flatMap AnnotatedSelector.localNames
  | .keyframes _ header => if header.isLocal then [header.name] else []

/-- A head with its local names renamed: escaped in selectors, as they are in headers. -/
def render (rename : String → String) : MarkedHead → Node.Head
  | .rule selectors => .rule (renderSelectors rename selectors)
  | .keyframes name header =>
    .keyframes name (if header.isLocal then rename header.name else header.name)

end MarkedHead

/-- The marked head of an at-rule, if it introduces keyframes. -/
def paramsMarks (frame : Frame) (name params : String) : List MarkedHead :=
  if Keyframes.isKeyframes name then
    [.keyframes name (Keyframes.readHeader params frame.mode.isLocal)]
  else []

mutual
def nodeMarks (frame : Frame) : Node → List MarkedHead
  | .rule selector body _ =>
    match Mode.ofBlockSelector? selector with
    | some mode => nodesMarks { frame with mode } body
    | none =>
      match importSpecifier? selector with
      | some _ => []
      | none =>
        if trim selector = ":export" then []
        else if frame.inKeyframes then []
        else
          match annotateSelectors selector frame.mode with
          | .error _ => []
          | .ok selectors => .rule selectors :: nodesMarks (frame.inRule selectors) body
  | .block name params body _ =>
    if isValueRule name then []
    else
      paramsMarks frame name params ++
        nodesMarks
          { frame with inKeyframes := frame.inKeyframes || Keyframes.isKeyframes name } body
  | .statement name params _ => if isValueRule name then [] else paramsMarks frame name params
  | .declaration _ | .comment .. => []

def nodesMarks (frame : Frame) : List Node → List MarkedHead
  | [] => []
  | first :: rest => nodeMarks frame first ++ nodesMarks frame rest
end

theorem nodeMarks_rule (frame : Frame) (selector : String) (body : List Node)
    (location : Location) :
    nodeMarks frame (.rule selector body location) =
      match ruleKind frame.mode frame.inKeyframes selector with
      | .wrapper mode => nodesMarks { frame with mode } body
      | .imports _ | .exports | .step | .refused _ => []
      | .ordinary selectors => .rule selectors :: nodesMarks (frame.inRule selectors) body := by
  unfold nodeMarks
  generalize isKind : ruleKind frame.mode frame.inKeyframes selector = kind
  cases of_ruleKind isKind <;> simp [*]

variable (context : FileContext)

/-! ## Marked heads are printed -/

theorem paramsHeads_printedParams (frame : Frame) (name params : String) :
    Node.paramsHeads name (printedParams context frame name params) =
      (paramsMarks frame name params).map (MarkedHead.render context.scopedName) := by
  unfold Node.paramsHeads printedParams paramsMarks
  split <;> rfl

mutual
theorem heads_printedNode (frame : Frame) (inRule : Bool) :
    (node : Node) → Node.headsAll frame.inKeyframes (printedNode context frame inRule node) =
      (nodeMarks frame node).map (MarkedHead.render context.scopedName)
  | .rule selector body location => by
    rw [printedNode_rule, nodeMarks_rule]
    cases kind : ruleKind frame.mode frame.inKeyframes selector with
    | wrapper mode => exact heads_printedNodes { frame with mode } false body
    | imports _ | exports | refused _ => rfl
    | step => simp [inKeyframes_of_step kind, Node.headsAll, Node.heads]
    | ordinary selectors =>
      have inside := heads_printedNodes (frame.inRule selectors) true body
      simp only [(outside_of_ordinary kind).1, Node.headsAll, Node.heads, Bool.false_eq_true,
        ↓reduceIte, List.append_nil, List.map_cons]
      exact congrArg _ inside
  | .block name params body location => by
    unfold printedNode nodeMarks
    by_cases isValue : isValueRule name
    · simp only [isValue, ↓reduceIte]
      rfl
    · have inside := heads_printedNodes
        { frame with inKeyframes := frame.inKeyframes || Keyframes.isKeyframes name } false body
      simp only [isValue, Bool.false_eq_true, ↓reduceIte, Node.headsAll, Node.heads,
        List.append_nil, List.map_append, paramsHeads_printedParams, inside]
  | .statement name params location => by
    unfold printedNode nodeMarks
    by_cases isValue : isValueRule name
    · simp only [isValue, ↓reduceIte]
      rfl
    · simp only [isValue, Bool.false_eq_true, ↓reduceIte, Node.headsAll, Node.heads,
        List.append_nil, paramsHeads_printedParams]
  | .declaration content => by
    unfold printedNode nodeMarks
    split <;> rfl
  | .comment text location => rfl

theorem heads_printedNodes (frame : Frame) (inRule : Bool) :
    (nodes : List Node) →
      Node.headsAll frame.inKeyframes (printedNodes context frame inRule nodes) =
        (nodesMarks frame nodes).map (MarkedHead.render context.scopedName)
  | [] => rfl
  | first :: rest => by
    simp only [printedNodes, nodesMarks, Node.headsAll_append, List.map_append,
      heads_printedNode frame inRule first, heads_printedNodes frame inRule rest]
end

/-! ## Marked names are recorded -/

/-- The records of a marked head, those of names that pass through aside for keyframes. -/
def MarkedHead.records : MarkedHead → List Record
  | .rule selectors => nameRecords context selectors
  | .keyframes _ header => if header.isLocal then [.keyframes header.name] else []

theorem records_paramsMarks {frame : Frame} {name params : String} {head : MarkedHead}
    (marked : head ∈ paramsMarks frame name params) :
    head.records context ⊆ paramsRecords context frame name params := by
  unfold paramsMarks at marked
  unfold paramsRecords headerRecords
  split at marked
  · rename_i isKeyframes
    cases List.mem_singleton.mp marked
    rw [MarkedHead.records, if_pos isKeyframes]
    dsimp only
    split
    · exact List.Subset.refl _
    · exact List.nil_subset _
  · cases marked

mutual
theorem records_nodeMarks {head : MarkedHead} (frame : Frame) :
    (node : Node) → head ∈ nodeMarks frame node →
      head.records context ⊆ nodeRecords context frame node
  | .rule selector body _ => by
    rw [nodeMarks_rule, nodeRecords_rule]
    cases ruleKind frame.mode frame.inKeyframes selector with
    | wrapper mode => exact records_nodesMarks { frame with mode } body
    | imports _ | exports | step | refused _ => exact fun marked => nomatch marked
    | ordinary selectors =>
      intro marked
      dsimp only
      rw [List.append_assoc]
      rcases List.mem_cons.mp marked with rfl | inside
      · exact List.subset_append_left _ _
      · apply List.Subset.trans (records_nodesMarks (frame.inRule selectors) body inside)
        exact List.Subset.trans (List.subset_append_right _ _) (List.subset_append_right _ _)
  | .block name params body _ => by
    unfold nodeMarks nodeRecords
    intro marked
    by_cases isValue : isValueRule name
    · simp [isValue] at marked
    simp only [isValue, Bool.false_eq_true, ↓reduceIte] at marked ⊢
    rcases List.mem_append.mp marked with header | inside
    · exact List.Subset.trans (records_paramsMarks context header) (List.subset_append_left _ _)
    · exact List.Subset.trans (records_nodesMarks _ body inside) (List.subset_append_right _ _)
  | .statement name params _ => by
    unfold nodeMarks nodeRecords
    intro marked
    by_cases isValue : isValueRule name
    · simp [isValue] at marked
    simp only [isValue, Bool.false_eq_true, ↓reduceIte] at marked ⊢
    exact records_paramsMarks context marked
  | .declaration _ | .comment .. => fun marked => by cases marked

theorem records_nodesMarks {head : MarkedHead} (frame : Frame) :
    (nodes : List Node) → head ∈ nodesMarks frame nodes →
      head.records context ⊆ nodesRecords context frame nodes
  | [] => fun marked => by cases marked
  | first :: rest => by
    intro marked
    rcases List.mem_append.mp marked with inFirst | later
    · exact List.Subset.trans (records_nodeMarks frame first inFirst)
        (List.subset_append_left _ _)
    · exact List.Subset.trans (records_nodesMarks frame rest later)
        (List.subset_append_right _ _)
end

def Scopes (records : List Record) (name : String) : Prop :=
  ∃ record ∈ records, record.scopes? = some name

theorem scopes_records {head : MarkedHead} {name : String} (isLocal : name ∈ head.localNames) :
    Scopes (head.records context) name := by
  cases head with
  | rule selectors =>
    rcases List.mem_flatMap.mp isLocal with ⟨selector, member, inside⟩
    rcases List.mem_filterMap.mp inside with ⟨segment, inSelector, isName⟩
    refine ⟨.declared name, List.mem_filterMap.mpr ⟨segment, ?_, ?_⟩, rfl⟩
    · exact List.mem_flatMap.mpr ⟨selector, member, inSelector⟩
    · unfold Selector.Segment.localName? at isName
      split at isName
      · cases isName
        rfl
      · cases isName
  | keyframes _ header =>
    unfold MarkedHead.localNames at isLocal
    unfold MarkedHead.records
    dsimp only at isLocal ⊢
    split at isLocal
    · rename_i inFile
      rw [List.mem_singleton.mp isLocal, if_pos inFile]
      exact ⟨_, List.mem_singleton_self _, rfl⟩
    · cases isLocal

theorem scopes_nodes {head : MarkedHead} {name : String} (isLocal : name ∈ head.localNames)
    (frame : Frame) (nodes : List Node) (marked : head ∈ nodesMarks frame nodes) :
    Scopes (nodesRecords context frame nodes) name := by
  rcases scopes_records context isLocal with ⟨record, member, isName⟩
  exact ⟨record, records_nodesMarks context frame nodes marked member, isName⟩

/-! ## Whole sheets -/

def sheetMarks (sheet : Stylesheet) : List MarkedHead :=
  nodesMarks ⟨context.mode, false, false⟩ sheet

theorem heads_printedSheet (sheet : Stylesheet) :
    Node.headsAll false (printedSheet context sheet) =
      (sheetMarks context sheet).map (MarkedHead.render context.scopedName) :=
  heads_printedNodes context ⟨context.mode, false, false⟩ false sheet

/-- Some record of a sheet makes a name stand for a text. -/
def WritesText (sheet : Stylesheet) (name : String) : Prop :=
  ∃ record ∈ sheetRecords context sheet, record.writes? = some name

variable {sheet : Stylesheet} {head : MarkedHead} {name : String}

theorem hasOwn_declaredState (marked : head ∈ sheetMarks context sheet)
    (isLocal : name ∈ head.localNames) (unwritten : ¬ WritesText context sheet name) :
    (declaredState context sheet).HasOwn name (context.scopedName name) .localName ∧
      (declaredState context sheet).Unwritten name := by
  have writesOther : ∀ record ∈ sheetRecords context sheet, record.writes? ≠ some name :=
    fun record member writes => unwritten ⟨record, member, writes⟩
  exact ⟨ModuleState.hasOwn_replay (scopes_nodes context isLocal _ sheet marked) writesOther,
    ModuleState.Unwritten.replay ⟨nofun, nofun⟩ writesOther⟩

/-- A local name of a sheet is exported as it is printed, now and throughout the second pass, or
the sheet makes it stand for a text. -/
theorem exported_of_develops {kept : String → Prop} {later : ModuleState}
    (marked : head ∈ sheetMarks context sheet) (isLocal : name ∈ head.localNames)
    (develops : (declaredState context sheet).Develops kept later) :
    ∃ entry, later.table.get? name = some entry ∧
      (entry.primary = context.scopedName name ∧ entry.kind = .localName ∨
        entry.isLiteral ∧ WritesText context sheet name) := by
  by_cases written : WritesText context sheet name
  · have declared : (declaredState context sheet).HasOwnOrText name (context.scopedName name) :=
      ModuleState.hasOwnOrText_replay (scopes_nodes context isLocal _ sheet marked)
    rcases ModuleState.Develops.hasOwnOrText develops declared with ⟨entry, found, holds⟩
    exact ⟨entry, found, holds.imp_right fun isText => ⟨isText, written⟩⟩
  · rcases hasOwn_declaredState context marked isLocal written with ⟨own, free⟩
    rcases ModuleState.Develops.hasOwn develops free own with ⟨entry, found, own⟩
    exact ⟨entry, found, .inl own⟩

end Collect

end ScopedStyles
