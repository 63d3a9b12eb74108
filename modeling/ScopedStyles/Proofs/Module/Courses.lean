import ScopedStyles.Proofs.Module.Fates
import ScopedStyles.Proofs.Sheet.Leaves

/-!
What becomes of a declaration or a comment when a file is collected, told by the rules and blocks
that it stands in: it stays, inside what stays of them; it goes with a rule of records; or it is a
composition, which its rule owns. The sheet keeps the leaves that stay, in order.
-/

namespace ScopedStyles

open Text

namespace Node

/-- Whether a rule or a block holds records, and nothing that is printed. -/
def Enclosure.isMetadata : Enclosure → Bool
  | .rule selector _ => (Collect.importSpecifier? selector).isSome || trim selector = ":export"
  | .block name _ _ => Collect.isValueRule name

end Node

namespace Collect

open Node

/-! ## The course of a leaf -/

/-- What becomes of a leaf when its file is collected. -/
inductive Course where
  /-- It stays in the sheet, in these rules and blocks. -/
  | stays (around : List Enclosure)
  /-- It composes, directly in a rule with these selectors. -/
  | owned (selectors : List AnnotatedSelector) (content : Declaration)
  /-- It goes with the rule of records that it stands in. -/
  | dropped
  /-- It stands in a rule with selectors that cannot be read. -/
  | refused
deriving DecidableEq, Repr

namespace Course

/-- The course of a leaf seen from outside one more rule or block that stays. -/
def inside (enclosure : Enclosure) : Course → Course
  | .stays around => .stays (enclosure :: around)
  | course => course

def around? : Course → Option (List Enclosure)
  | .stays around => some around
  | _ => none

/-- The compositions of a class that a leaf with this course stands for: one for each selector of
its rule with that class. -/
def compositions (owner : String) : Course → List Composition
  | .owned selectors content =>
    .replicate ((owners selectors).count owner) (.ofDeclaration content)
  | _ => []

theorem around?_inside (enclosure : Enclosure) (course : Course) :
    (course.inside enclosure).around? = course.around?.map (enclosure :: ·) := by
  cases course <;> rfl

@[simp] theorem inside_eq_dropped {enclosure : Enclosure} {course : Course} :
    course.inside enclosure = .dropped ↔ course = .dropped := by
  cases course <;> simp [inside]

@[simp] theorem inside_eq_owned {enclosure : Enclosure} {course : Course}
    {selectors : List AnnotatedSelector} {content : Declaration} :
    course.inside enclosure = .owned selectors content ↔ course = .owned selectors content := by
  cases course <;> simp [inside]

theorem compositions_inside (owner : String) (enclosure : Enclosure) (course : Course) :
    (course.inside enclosure).compositions owner = course.compositions owner := by
  cases course <;> rfl

/-- The course of a leaf that stands directly in a rule with these selectors, or in none. -/
def ofHolder : Option (List AnnotatedSelector) → Leaf → Course
  | some selectors, .declaration content =>
    if Composition.isComposing content then .owned selectors content else .stays []
  | _, _ => .stays []

end Course

/-- The course of a leaf, by the rules and blocks around it; `holder` has the selectors of the rule
that all of this stands in directly. -/
def course (context : FileContext) (frame : Frame) (holder : Option (List AnnotatedSelector))
    (leaf : Leaf) : List Enclosure → Course
  | [] => .ofHolder holder leaf
  | .rule selector location :: inner =>
    match Mode.ofBlockSelector? selector with
    -- A wrapper leaves nothing of itself, and owns nothing.
    | some mode => course context { frame with mode } none leaf inner
    | none =>
      if (Enclosure.rule selector location).isMetadata then .dropped
      -- The steps of keyframes stay as they are, with whatever is in them.
      else if frame.inKeyframes then .stays (.rule selector location :: inner)
      else
        match annotateSelectors selector frame.mode with
        | .error _ => .refused
        | .ok selectors =>
          (course context (frame.inRule selectors) (some selectors) leaf inner).inside
            (.rule (renderSelectors context.scopedName selectors) location)
  | .block name params location :: inner =>
    if (Enclosure.block name params location).isMetadata then .dropped
    else
      (course context
        { frame with inKeyframes := frame.inKeyframes || Keyframes.isKeyframes name }
        none leaf inner).inside (.block name (printedParams context frame name params) location)

def keptLeaf? (context : FileContext) (frame : Frame) (holder : Option (List AnnotatedSelector))
    (placed : PlacedLeaf) : Option PlacedLeaf :=
  (course context frame holder placed.leaf placed.around).around?.map (⟨·, placed.leaf⟩)

variable {context : FileContext} {frame : Frame} {holder : Option (List AnnotatedSelector)}

section

variable {leaf : Leaf} {selector name params : String} {location : Location}
  {inner : List Enclosure}

theorem course_rule (context : FileContext) (frame : Frame)
    (holder : Option (List AnnotatedSelector)) (leaf : Leaf) (selector : String)
    (location : Location) (inner : List Enclosure) :
    course context frame holder leaf (.rule selector location :: inner) =
      match ruleKind frame.mode frame.inKeyframes selector with
      | .wrapper mode => course context { frame with mode } none leaf inner
      | .imports _ | .exports => .dropped
      | .step => .stays (.rule selector location :: inner)
      | .refused _ => .refused
      | .ordinary selectors =>
        (course context (frame.inRule selectors) (some selectors) leaf inner).inside
          (.rule (renderSelectors context.scopedName selectors) location) := by
  rw [course]
  generalize isKind : ruleKind frame.mode frame.inKeyframes selector = kind
  cases of_ruleKind isKind <;> simp [*, Enclosure.isMetadata]

theorem course_wrapper {mode : Mode}
    (kind : ruleKind frame.mode frame.inKeyframes selector = .wrapper mode) :
    course context frame holder leaf (.rule selector location :: inner) =
      course context { frame with mode } none leaf inner := by
  rw [course_rule, kind]

theorem course_ordinary {selectors : List AnnotatedSelector}
    (kind : ruleKind frame.mode frame.inKeyframes selector = .ordinary selectors) :
    course context frame holder leaf (.rule selector location :: inner) =
      (course context (frame.inRule selectors) (some selectors) leaf inner).inside
        (.rule (renderSelectors context.scopedName selectors) location) := by
  rw [course_rule, kind]

theorem isMetadata_of_imports {mode : Mode} {inKeyframes : Bool} {specifier : String}
    (kind : ruleKind mode inKeyframes selector = .imports specifier) :
    (Enclosure.rule selector location).isMetadata := by
  cases of_ruleKind kind with
  | imports _ isImport => simp [Enclosure.isMetadata, isImport]

theorem isMetadata_of_exports {mode : Mode} {inKeyframes : Bool}
    (kind : ruleKind mode inKeyframes selector = .exports) :
    (Enclosure.rule selector location).isMetadata := by
  cases of_ruleKind kind with
  | exports _ _ isExport => simp [Enclosure.isMetadata, isExport]

theorem course_values (isValue : isValueRule name) :
    course context frame holder leaf (.block name params location :: inner) = .dropped := by
  simp only [course, Enclosure.isMetadata, isValue, ↓reduceIte]

theorem course_block (noValue : ¬ isValueRule name) :
    course context frame holder leaf (.block name params location :: inner) =
      (course context
        { frame with inKeyframes := frame.inKeyframes || Keyframes.isKeyframes name }
        none leaf inner).inside
          (.block name (printedParams context frame name params) location) := by
  simp only [course, Enclosure.isMetadata, noValue, Bool.false_eq_true, ↓reduceIte]

theorem course_cons_holder {context : FileContext} {frame : Frame} (outer : Enclosure)
    (holder : Option (List AnnotatedSelector)) :
    course context frame holder leaf (outer :: inner) =
      course context frame none leaf (outer :: inner) := by
  cases outer with
  | rule => rw [course, course]
  | block => rw [course, course]

end

/-! ## What is kept -/

section

variable {outer enclosure : Enclosure} {inner : Frame} {around : Option (List AnnotatedSelector)}

theorem keptLeaf?_spliced
    (same : ∀ leaf path, course context frame holder leaf (outer :: path) =
      course context inner around leaf path) :
    keptLeaf? context frame holder ∘ PlacedLeaf.inside outer = keptLeaf? context inner around := by
  funext placed
  rw [Function.comp_apply, keptLeaf?, PlacedLeaf.inside, same, keptLeaf?]

theorem keptLeaf?_inside
    (same : ∀ leaf path, course context frame holder leaf (outer :: path) =
      (course context inner around leaf path).inside enclosure) :
    keptLeaf? context frame holder ∘ PlacedLeaf.inside outer =
      fun placed => (keptLeaf? context inner around placed).map (PlacedLeaf.inside enclosure) := by
  funext placed
  rw [Function.comp_apply, keptLeaf?, PlacedLeaf.inside, same, Course.around?_inside, keptLeaf?,
    Option.map_map, Option.map_map]
  rfl

theorem keptLeaf?_stays
    (same : ∀ leaf path, course context frame holder leaf (outer :: path) =
      .stays (outer :: path)) :
    keptLeaf? context frame holder ∘ PlacedLeaf.inside outer =
      fun placed => some (placed.inside outer) := by
  funext placed
  rw [Function.comp_apply, keptLeaf?, PlacedLeaf.inside, same]
  rfl

theorem keptLeaf?_gone
    (same : ∀ leaf path,
      (course context frame holder leaf (outer :: path)).around? = none) :
    keptLeaf? context frame holder ∘ PlacedLeaf.inside outer = fun _ => none := by
  funext placed
  rw [Function.comp_apply, keptLeaf?, PlacedLeaf.inside, same]
  rfl

end

mutual
theorem leavesAll_printedNode (frame : Frame) (holder : Option (List AnnotatedSelector)) :
    (node : Node) → leavesAll (printedNode context frame holder.isSome node) =
      node.leaves.filterMap (keptLeaf? context frame holder)
  | .rule selector body location => by
    rw [leaves, List.filterMap_map, printedNode_rule]
    cases kind : ruleKind frame.mode frame.inKeyframes selector with
    | wrapper mode =>
      rw [keptLeaf?_spliced fun _ _ => course_wrapper kind]
      exact leavesAll_printedNodes { frame with mode } none body
    | imports _ | exports | refused _ =>
      rw [keptLeaf?_gone fun _ _ => by rw [course_rule, kind]; rfl]
      simp [leavesAll]
    | step =>
      rw [keptLeaf?_stays fun _ _ => by rw [course_rule, kind]]
      simp [leavesAll_singleton, leaves]
    | ordinary selectors =>
      have inside := leavesAll_printedNodes (frame.inRule selectors) (some selectors) body
      rw [keptLeaf?_inside fun _ _ => course_ordinary kind]
      simp only [leavesAll_singleton, leaves]
      rw [← List.map_filterMap, ← inside]
      rfl
  | .block name params body location => by
    rw [leaves, List.filterMap_map]
    unfold printedNode
    by_cases isValue : isValueRule name
    · rw [if_pos isValue, keptLeaf?_gone fun _ _ => by rw [course_values isValue]; rfl]
      simp [leavesAll]
    · have inside := leavesAll_printedNodes
        { frame with inKeyframes := frame.inKeyframes || Keyframes.isKeyframes name } none body
      rw [if_neg isValue, keptLeaf?_inside fun _ _ => course_block isValue]
      simp only [leavesAll_singleton, leaves]
      rw [← List.map_filterMap, ← inside]
      rfl
  | .statement name params location => by
    unfold printedNode
    split <;> rfl
  | .declaration content => by
    unfold printedNode
    cases holder <;> cases composes : Composition.isComposing content <;>
      simp [composes, leaves, leavesAll, keptLeaf?, course, Course.ofHolder, Course.around?]
  | .comment text location => by
    cases holder <;> rfl

theorem leavesAll_printedNodes (frame : Frame) (holder : Option (List AnnotatedSelector)) :
    (nodes : List Node) → leavesAll (printedNodes context frame holder.isSome nodes) =
      (leavesAll nodes).filterMap (keptLeaf? context frame holder)
  | [] => rfl
  | first :: rest => by
    rw [printedNodes, leavesAll_append, leavesAll, List.filterMap_append,
      leavesAll_printedNode frame holder first, leavesAll_printedNodes frame holder rest]
end

/-! ## What is dropped, and what is owned -/

/-- What a rule or a block can make of the courses of the leaves in it. -/
inductive Opens (context : FileContext) (frame : Frame) (holder : Option (List AnnotatedSelector))
    (outer : Enclosure) : Prop
  | splices (inner : Frame)
      (same : ∀ leaf path, course context frame holder leaf (outer :: path) =
        course context inner none leaf path)
  | stays (inner : Frame) (around : Option (List AnnotatedSelector)) (enclosure : Enclosure)
      (same : ∀ leaf path, course context frame holder leaf (outer :: path) =
        (course context inner around leaf path).inside enclosure)
      (owned : ∀ selectors ∈ around, ∃ selector location mode,
        outer = .rule selector location ∧ annotateSelectors selector mode = .ok selectors)
  | passes (same : ∀ leaf path, course context frame holder leaf (outer :: path) =
      .stays (outer :: path))
  | drops (isMetadata : outer.isMetadata)
      (same : ∀ leaf path, course context frame holder leaf (outer :: path) = .dropped)
  | refuses (same : ∀ leaf path, course context frame holder leaf (outer :: path) = .refused)

theorem opens (context : FileContext) (frame : Frame) (holder : Option (List AnnotatedSelector))
    (outer : Enclosure) : Opens context frame holder outer := by
  cases outer with
  | rule selector location =>
    cases kind : ruleKind frame.mode frame.inKeyframes selector with
    | wrapper mode => exact .splices _ fun _ _ => course_wrapper kind
    | imports _ => exact .drops (isMetadata_of_imports kind) fun _ _ => by rw [course_rule, kind]
    | exports => exact .drops (isMetadata_of_exports kind) fun _ _ => by rw [course_rule, kind]
    | step => exact .passes fun _ _ => by rw [course_rule, kind]
    | refused _ => exact .refuses fun _ _ => by rw [course_rule, kind]
    | ordinary selectors =>
      apply Opens.stays _ _ _ fun _ _ => course_ordinary kind
      rintro _ ⟨rfl⟩
      exact ⟨selector, location, frame.mode, rfl, annotated_of_ordinary kind⟩
  | block name params location =>
    by_cases isValue : isValueRule name
    · exact .drops isValue fun _ _ => course_values isValue
    · exact .stays _ none _ (fun _ _ => course_block isValue) nofun

theorem isMetadata_of_dropped {leaf : Leaf} {path : List Enclosure}
    (dropped : course context frame holder leaf path = .dropped) :
    ∃ enclosure ∈ path, enclosure.isMetadata := by
  induction path generalizing frame holder with
  | nil =>
    rw [course, Course.ofHolder.eq_def] at dropped
    split at dropped
    · split at dropped <;> cases dropped
    · cases dropped
  | cons outer path induction =>
    have further {inner : Frame} {around : Option (List AnnotatedSelector)}
        (dropped : course context inner around leaf path = .dropped) :
        ∃ enclosure ∈ outer :: path, enclosure.isMetadata := by
      rcases induction dropped with ⟨enclosure, member, isMetadata⟩
      exact ⟨enclosure, List.mem_cons_of_mem _ member, isMetadata⟩
    cases opens context frame holder outer with
    | splices inner same => exact further (by rw [← same, dropped])
    | stays inner around enclosure same _ => exact further (by simpa [same] using dropped)
    | drops isMetadata _ => exact ⟨outer, List.mem_cons_self, isMetadata⟩
    | passes same | refuses same => cases (same ..).symm.trans dropped

theorem composing_of_owned {leaf : Leaf} {path : List Enclosure} {content : Declaration}
    {selectors : List AnnotatedSelector}
    (owned : course context frame holder leaf path = .owned selectors content) :
    leaf = .declaration content ∧ Composition.isComposing content ∧
      (path = [] ∧ holder = some selectors ∨
        ∃ outer selector location mode, path = outer ++ [.rule selector location] ∧
          annotateSelectors selector mode = .ok selectors) := by
  induction path generalizing frame holder with
  | nil =>
    rw [course, Course.ofHolder.eq_def] at owned
    split at owned
    · split at owned <;> cases owned
      rename_i composes
      exact ⟨rfl, composes, .inl ⟨rfl, rfl⟩⟩
    · cases owned
  | cons first path induction =>
    cases opens context frame holder first with
    | splices inner same =>
      rcases induction (same .. ▸ owned) with ⟨isLeaf, composes, direct | further⟩
      · cases direct.2
      · rcases further with ⟨outer, selector, location, mode, rfl, annotated⟩
        exact ⟨isLeaf, composes, .inr ⟨first :: outer, selector, location, mode, rfl, annotated⟩⟩
    | stays inner around enclosure same scopes =>
      have inside : course context inner around leaf path = .owned selectors content := by
        simpa [same] using owned
      rcases induction inside with ⟨isLeaf, composes, ⟨rfl, isOwner⟩ | further⟩
      · rcases scopes selectors isOwner with ⟨selector, location, mode, rfl, annotated⟩
        exact ⟨isLeaf, composes, .inr ⟨[], selector, location, mode, rfl, annotated⟩⟩
      · rcases further with ⟨outer, selector, location, mode, rfl, annotated⟩
        exact ⟨isLeaf, composes, .inr ⟨first :: outer, selector, location, mode, rfl, annotated⟩⟩
    | passes same | drops _ same | refuses same => cases (same ..).symm.trans owned

/-- Classes own what is owned, and no leaf stands in a rule that cannot be read. -/
def Course.Granted : Course → Prop
  | .owned selectors _ =>
    ∃ owners, selectors.mapM AnnotatedSelector.singleLocalClass? = some owners
  | .refused => False
  | .stays _ | .dropped => True

@[simp] theorem Course.granted_inside {enclosure : Enclosure} {course : Course} :
    (course.inside enclosure).Granted ↔ course.Granted := by
  cases course <;> exact .rfl

/-- Every leaf is granted its course when those in an enclosure are. -/
theorem granted_inside {outer : Enclosure} {body : List Node} {inner : Frame}
    {around : Option (List AnnotatedSelector)}
    (same : ∀ leaf path, (course context frame holder leaf (outer :: path)).Granted ↔
      (course context inner around leaf path).Granted)
    (granted : ∀ placed ∈ leavesAll body,
      (course context inner around placed.leaf placed.around).Granted) :
    ∀ placed ∈ (leavesAll body).map (PlacedLeaf.inside outer),
      (course context frame holder placed.leaf placed.around).Granted := by
  intro placed member
  rcases List.mem_map.mp member with ⟨inside, isInside, rfl⟩
  exact (same inside.leaf inside.around).mpr (granted inside isInside)

theorem granted_outright {outer : Enclosure} {body : List Node}
    (granted : ∀ leaf path, (course context frame holder leaf (outer :: path)).Granted) :
    ∀ placed ∈ (leavesAll body).map (PlacedLeaf.inside outer),
      (course context frame holder placed.leaf placed.around).Granted := by
  intro placed member
  rcases List.mem_map.mp member with ⟨inside, _, rfl⟩
  exact granted inside.leaf inside.around

theorem Course.granted_ofHolder {content : Declaration}
    (owned : ∀ selectors ∈ holder, Composition.isComposing content →
      ∃ owners, selectors.mapM AnnotatedSelector.singleLocalClass? = some owners) :
    (Course.ofHolder holder (.declaration content)).Granted := by
  cases holder with
  | none => trivial
  | some selectors =>
    cases composes : Composition.isComposing content with
    | true =>
      rw [Course.ofHolder, if_pos composes]
      exact owned selectors rfl composes
    | false =>
      rw [Course.ofHolder, composes]
      trivial

theorem declarationsOf_cons (first : Node) (rest : List Node) :
    declarationsOf (first :: rest) = declarationsOf [first] ++ declarationsOf rest := by
  rw [declarationsOf, ← List.singleton_append, List.filterMap_append]
  rfl

mutual
/-- When a node has been collected, every leaf in it is granted its course, if the compositions
that the rule around it owns are. -/
theorem granted_node (frame : Frame) (inRule : Bool) (holder : Option (List AnnotatedSelector))
    {collection after : Collection} {kept : List Node} :
    (item : Node) →
      outcome (node context frame inRule item) collection = (.ok kept, after) →
      (∀ selectors ∈ holder, ∀ content ∈ declarationsOf [item], Composition.isComposing content →
        ∃ owners, selectors.mapM AnnotatedSelector.singleLocalClass? = some owners) →
      ∀ placed ∈ item.leaves, (course context frame holder placed.leaf placed.around).Granted
  | .rule selector body location => by
    rw [node_rule, leaves]
    cases kind : ruleKind frame.mode frame.inKeyframes selector with
    | wrapper mode =>
      dsimp only
      intro ends _
      split at ends
      · cases ends
      apply granted_inside fun _ _ => by rw [course_wrapper kind]
      exact granted_nodes { frame with mode } false none body ends nofun
    | imports _ | exports | step =>
      exact fun _ _ => granted_outright fun _ _ => by rw [course_rule, kind]; trivial
    | refused _ => exact fun ends => nomatch ends
    | ordinary own =>
      intro ends _
      rcases exists_of_bind_eq_ok ends with ⟨selectors, middle, scopes, rest⟩
      rcases exists_of_bind_eq_ok rest with ⟨_, _, walks, _⟩
      rcases owners_of_scopeRule context (annotated_of_ordinary kind) scopes with ⟨rfl, owners⟩
      apply granted_inside fun _ _ => by rw [course_ordinary kind, Course.granted_inside]
      apply granted_nodes _ true (some selectors) body walks
      rintro _ ⟨rfl⟩
      exact owners
  | .block name params body location => by
    intro ends _
    unfold node at ends
    rw [leaves]
    by_cases isValue : isValueRule name
    · exact granted_outright fun _ _ => by rw [course_values isValue]; trivial
    rw [if_neg isValue] at ends
    rcases exists_of_bind_eq_ok ends with ⟨_, _, _, rest⟩
    rcases exists_of_bind_eq_ok rest with ⟨_, _, walks, _⟩
    apply granted_inside fun _ _ => by rw [course_block isValue, Course.granted_inside]
    exact granted_nodes _ false none body walks nofun
  | .statement .. => fun _ _ _ member => absurd member List.not_mem_nil
  | .comment text location => by
    intro _ _ placed member
    cases List.mem_singleton.mp member
    cases holder <;> trivial
  | .declaration content => by
    intro _ owned placed member
    cases List.mem_singleton.mp member
    exact Course.granted_ofHolder fun selectors isHolder =>
      owned selectors isHolder content List.mem_cons_self

theorem granted_nodes (frame : Frame) (inRule : Bool) (holder : Option (List AnnotatedSelector))
    {collection after : Collection} {kept : List Node} :
    (items : List Node) →
      outcome (nodes context frame inRule items) collection = (.ok kept, after) →
      (∀ selectors ∈ holder, ∀ content ∈ declarationsOf items, Composition.isComposing content →
        ∃ owners, selectors.mapM AnnotatedSelector.singleLocalClass? = some owners) →
      ∀ placed ∈ leavesAll items,
        (course context frame holder placed.leaf placed.around).Granted
  | [] => fun _ _ _ member => absurd member List.not_mem_nil
  | first :: rest => by
    intro ends owned placed member
    rcases exists_of_bind_eq_ok ends with ⟨_, _, walks, behind⟩
    rcases exists_of_bind_eq_ok behind with ⟨_, _, walksRest, _⟩
    rw [declarationsOf_cons] at owned
    rcases List.mem_append.mp member with member | member
    · apply granted_node frame inRule holder first walks ?_ placed member
      exact fun selectors isHolder content inside =>
        owned selectors isHolder content (List.mem_append_left _ inside)
    · apply granted_nodes frame inRule holder rest walksRest ?_ placed member
      exact fun selectors isHolder content inside =>
        owned selectors isHolder content (List.mem_append_right _ inside)
end

theorem granted_of_run {sheet kept : Stylesheet} (collected : (run context sheet).1 = .ok kept) :
    ∀ placed ∈ leavesAll sheet,
      (course context ⟨context.mode, false, false⟩ none placed.leaf placed.around).Granted := by
  have ends : outcome (Collect.sheet context sheet) .empty = (.ok kept, (run context sheet).2) :=
    Prod.ext collected rfl
  rcases exists_of_bind_eq_ok ends with ⟨_, _, walks, _⟩
  exact granted_nodes _ false none sheet walks nofun

end Collect

end ScopedStyles
