import ScopedStyles.Proofs.Module.Courses
import ScopedStyles.Proofs.Module.Declarations
import ScopedStyles.Sheet.Parse
import ScopedStyles.Sheet.Printer

/-!
Collecting loses no style: every declaration and comment of a sheet stays in order and in place,
goes with a rule of records, or is a composition that has been recorded for the class of each
selector of its rule. The compositions of a class are those that the sheet asks for, each rule
giving its own before those of the rules inside it.
-/

namespace ScopedStyles

open Text

namespace Node

def isComposing : Node → Bool
  | .declaration content => Composition.isComposing content
  | _ => false

/-- The compositions of a body before everything else in it. -/
def front (nodes : List Node) : List Node :=
  nodes.filter isComposing ++ nodes.filter (!·.isComposing)

mutual
def fronted : Node → Node
  | .rule selector body location => .rule selector (front (frontedAll body)) location
  | .block name params body location => .block name params (frontedAll body) location
  | node => node

/-- A list of nodes with the compositions of every rule in front of the rest of its body. -/
def frontedAll : List Node → List Node
  | [] => []
  | first :: rest => first.fronted :: frontedAll rest
end

mutual
theorem perm_leaves_fronted : (node : Node) → node.fronted.leaves.Perm node.leaves
  | .rule selector body location => by
    have inside := perm_leavesAll_frontedAll body
    have moved : (leavesAll (front (frontedAll body))).Perm (leavesAll (frontedAll body)) := by
      rw [leavesAll_eq_flatMap, leavesAll_eq_flatMap]
      exact (List.filter_append_perm isComposing _).flatMap_right _
    exact (moved.trans inside).map _
  | .block name params body location => (perm_leavesAll_frontedAll body).map _
  | .statement .. | .declaration _ | .comment .. => .refl _

/-- Bringing compositions to the front moves leaves, and does nothing else to them. -/
theorem perm_leavesAll_frontedAll :
    (nodes : List Node) → (leavesAll (frontedAll nodes)).Perm (leavesAll nodes)
  | [] => .refl _
  | first :: rest => (perm_leaves_fronted first).append (perm_leavesAll_frontedAll rest)
end

/-- No composition of a body stands behind something that has a body itself. -/
def composesFirst : List Node → Bool
  | [] => true
  | first :: rest =>
    (first.body.isEmpty || rest.all (!·.isComposing)) && composesFirst rest

mutual
def isFronted : Node → Bool
  | .rule _ body _ => composesFirst body && isFrontedAll body
  | .block _ _ body _ => isFrontedAll body
  | _ => true

/-- No composition stands behind a rule or block inside its own rule. -/
def isFrontedAll : List Node → Bool
  | [] => true
  | first :: rest => first.isFronted && isFrontedAll rest
end

end Node

namespace Collect

open Node ModuleState

/-- The compositions of a class that a list of nodes asks for, in document order. -/
def asked (context : FileContext) (frame : Frame) (holder : Option (List AnnotatedSelector))
    (owner : String) (nodes : List Node) : List Composition :=
  (leavesAll nodes).flatMap fun placed =>
    (course context frame holder placed.leaf placed.around).compositions owner

variable {context : FileContext} {frame : Frame} {holder : Option (List AnnotatedSelector)}

/-! ## Compositions -/

theorem compositionsFor_nameRecords (owner : String) (selectors : List AnnotatedSelector) :
    compositionsFor owner (nameRecords context selectors) = [] := by
  apply compositionsFor_eq_nil
  intro record member
  rcases List.mem_filterMap.mp member with ⟨segment, _, records⟩
  unfold segmentRecord? at records
  split at records
  · cases records
    rfl
  · split at records <;> cases records
    rfl
  · cases records

theorem compositionsFor_compositionRecords (owner : String) (selectors : List AnnotatedSelector)
    (body : List Node) :
    compositionsFor owner (compositionRecords selectors body) =
      ((declarationsOf body).filter Composition.isComposing).flatMap fun content =>
        (Course.owned selectors content).compositions owner := by
  unfold compositionRecords
  generalize (declarationsOf body).filter Composition.isComposing = contents
  induction contents with
  | nil => rfl
  | cons content rest induction =>
    rw [List.flatMap_cons, List.flatMap_cons, compositionsFor_append, induction,
      compositionsFor_classes, Course.compositions]

/-! ## What a sheet asks for -/

theorem asked_append (frame : Frame) (holder : Option (List AnnotatedSelector)) (owner : String)
    (first second : List Node) :
    asked context frame holder owner (first ++ second) =
      asked context frame holder owner first ++ asked context frame holder owner second := by
  simp [asked, leavesAll_append]

theorem asked_cons (frame : Frame) (holder : Option (List AnnotatedSelector)) (owner : String)
    (first : Node) (rest : List Node) :
    asked context frame holder owner (first :: rest) =
      asked context frame holder owner [first] ++ asked context frame holder owner rest := by
  rw [← asked_append, List.singleton_append]

section

variable {owner : String} {selector name params text : String} {body : List Node}
  {location : Location} {content : Declaration} {inner : Frame}
  {around : Option (List AnnotatedSelector)}

/-- A rule or block asks for what stands in it when the course of a leaf goes on there. -/
theorem asked_inside {outer : Enclosure} {node : Node}
    (isOuter : node.leaves = (leavesAll body).map (PlacedLeaf.inside outer))
    (same : ∀ leaf path,
      (course context frame holder leaf (outer :: path)).compositions owner =
        (course context inner around leaf path).compositions owner) :
    asked context frame holder owner [node] = asked context inner around owner body := by
  rw [asked, leavesAll_singleton, isOuter, List.flatMap_map, asked]
  congr 1
  funext placed
  exact same placed.leaf placed.around

theorem asked_nothing {outer : Enclosure} {node : Node}
    (isOuter : node.leaves = (leavesAll body).map (PlacedLeaf.inside outer))
    (nothing : ∀ leaf path,
      (course context frame holder leaf (outer :: path)).compositions owner = []) :
    asked context frame holder owner [node] = [] := by
  rw [asked, leavesAll_singleton, isOuter, List.flatMap_map]
  apply List.flatMap_eq_nil_iff.mpr
  intro placed _
  exact nothing placed.leaf placed.around

theorem asked_outer {outer : Enclosure} {node : Node}
    (isOuter : node.leaves = (leavesAll body).map (PlacedLeaf.inside outer)) :
    asked context frame holder owner [node] = asked context frame none owner [node] := by
  rw [asked, asked, leavesAll_singleton, isOuter, List.flatMap_map, List.flatMap_map]
  congr 1
  funext placed
  rw [PlacedLeaf.inside, course_cons_holder]

theorem asked_declaration :
    asked context frame holder owner [.declaration content] =
      (Course.ofHolder holder (.declaration content)).compositions owner := by
  simp [asked, leavesAll, leaves, course]

theorem asked_comment : asked context frame holder owner [.comment text location] = [] := by
  cases holder <;> rfl

theorem asked_none_declaration :
    asked context frame none owner [.declaration content] = [] := by
  rw [asked_declaration]
  rfl

theorem asked_of_not_isComposing {node : Node} (other : node.isComposing = false) :
    asked context frame holder owner [node] = asked context frame none owner [node] := by
  cases node with
  | rule selector body location => exact asked_outer rfl
  | block name params body location => exact asked_outer rfl
  | statement => rfl
  | declaration content =>
    rw [asked_none_declaration, asked_declaration]
    have plain : Composition.isComposing content = false := other
    cases holder <;> simp [Course.ofHolder, plain, Course.compositions]
  | comment => rw [asked_comment, asked_comment]

theorem asked_none_of_isComposing {node : Node} (composes : node.isComposing) :
    asked context frame none owner [node] = [] := by
  cases node with
  | declaration content => exact asked_none_declaration
  | rule | block | statement | comment => cases composes

theorem asked_none_composing (nodes : List Node) :
    asked context frame none owner (nodes.filter isComposing) = [] := by
  induction nodes with
  | nil => rfl
  | cons first rest induction =>
    rw [List.filter_cons]
    split
    · rename_i composes
      rw [asked_cons, asked_none_of_isComposing composes, induction]
      rfl
    · exact induction

theorem asked_others (nodes : List Node) :
    asked context frame holder owner (nodes.filter (!·.isComposing)) =
      asked context frame none owner nodes := by
  induction nodes with
  | nil => rfl
  | cons first rest induction =>
    rw [List.filter_cons, asked_cons _ none]
    cases composes : first.isComposing with
    | true =>
      rw [asked_none_of_isComposing composes]
      exact induction
    | false =>
      have same : asked context frame holder owner [first] =
        asked context frame none owner [first] := asked_of_not_isComposing composes
      rw [← same, ← induction]
      exact asked_cons ..

theorem asked_composing (selectors : List AnnotatedSelector) (nodes : List Node) :
    asked context frame (some selectors) owner (nodes.filter isComposing) =
      ((declarationsOf nodes).filter Composition.isComposing).flatMap fun content =>
        (Course.owned selectors content).compositions owner := by
  induction nodes with
  | nil => rfl
  | cons first rest induction =>
    rw [List.filter_cons]
    cases first with
    | declaration content =>
      have isFirst : declarationsOf (.declaration content :: rest) =
        content :: declarationsOf rest := rfl
      rw [isFirst, List.filter_cons, isComposing]
      split
      · rename_i composes
        rw [asked_cons, induction, asked_declaration, Course.ofHolder, if_pos composes]
        rfl
      · exact induction
    | rule | block | statement | comment => exact induction

theorem asked_front (selectors : List AnnotatedSelector) (nodes : List Node) :
    asked context frame (some selectors) owner (front nodes) =
      compositionsFor owner (compositionRecords selectors nodes) ++
        asked context frame none owner nodes := by
  rw [front, asked_append, asked_others, asked_composing, compositionsFor_compositionRecords]

theorem asked_none_front (nodes : List Node) :
    asked context frame none owner (front nodes) = asked context frame none owner nodes := by
  rw [front, asked_append, asked_others, asked_none_composing, List.nil_append]

end

theorem declarationsOf_frontedAll (nodes : List Node) :
    declarationsOf (frontedAll nodes) = declarationsOf nodes := by
  induction nodes with
  | nil => rfl
  | cons first rest induction =>
    cases first with
    | declaration content => exact congrArg (content :: ·) induction
    | rule | block | statement | comment => exact induction

theorem compositionRecords_frontedAll (selectors : List AnnotatedSelector) (nodes : List Node) :
    compositionRecords selectors (frontedAll nodes) = compositionRecords selectors nodes := by
  rw [compositionRecords, declarationsOf_frontedAll, compositionRecords]

theorem compositionsFor_valueRecords (owner params : String) (location : Location) :
    compositionsFor owner (valueRecords params location) = [] := by
  apply compositionsFor_eq_nil
  intro record member
  unfold valueRecords at member
  split at member
  · cases List.mem_singleton.mp member
    rfl
  · cases List.mem_singleton.mp member
    rfl
  · rcases List.mem_map.mp member with ⟨_, _, rfl⟩
    rfl

theorem compositionsFor_paramsRecords (owner : String) (frame : Frame) (name params : String) :
    compositionsFor owner (paramsRecords context frame name params) = [] := by
  apply compositionsFor_eq_nil
  intro record member
  unfold paramsRecords headerRecords at member
  dsimp only at member
  split at member
  · split at member
    · cases List.mem_singleton.mp member
      rfl
    · split at member
      · cases List.mem_singleton.mp member
        rfl
      · cases member
  · cases member

mutual
/-- The compositions that a node records are those that it asks for when the compositions of every
rule stand in front. -/
theorem compositionsFor_nodeRecords (owner : String) (frame : Frame) :
    (node : Node) → compositionsFor owner (nodeRecords context frame node) =
      asked context frame none owner [node.fronted]
  | .rule selector body location => by
    have isRule : (Node.rule selector body location).fronted.leaves =
        (leavesAll (front (frontedAll body))).map
          (PlacedLeaf.inside (.rule selector location)) := rfl
    rw [nodeRecords_rule]
    cases kind : ruleKind frame.mode frame.inKeyframes selector with
    | wrapper mode =>
      rw [asked_inside isRule fun _ _ => by rw [course_wrapper kind], asked_none_front]
      exact compositionsFor_nodesRecords owner { frame with mode } body
    | imports _ | exports =>
      rw [asked_nothing isRule fun _ _ => by rw [course_rule, kind]; rfl]
      apply compositionsFor_eq_nil
      intro record member
      rcases List.mem_map.mp member with ⟨_, _, rfl⟩
      rfl
    | step | refused _ =>
      rw [asked_nothing isRule fun _ _ => by rw [course_rule, kind]; rfl]
      rfl
    | ordinary selectors =>
      have inside := compositionsFor_nodesRecords owner (frame.inRule selectors) body
      rw [asked_inside isRule fun _ _ => by rw [course_ordinary kind, Course.compositions_inside]]
      dsimp only
      rw [compositionsFor_append, compositionsFor_append, compositionsFor_nameRecords, inside,
        asked_front, compositionRecords_frontedAll, List.nil_append]
  | .block name params body location => by
    have isBlock : (Node.block name params body location).fronted.leaves =
        (leavesAll (frontedAll body)).map
          (PlacedLeaf.inside (.block name params location)) := rfl
    unfold nodeRecords
    by_cases isValue : isValueRule name
    · rw [if_pos isValue, asked_nothing isBlock fun _ _ => by rw [course_values isValue]; rfl]
      exact compositionsFor_valueRecords owner params location
    · rw [if_neg isValue, compositionsFor_append, compositionsFor_paramsRecords,
        asked_inside isBlock fun _ _ => by rw [course_block isValue, Course.compositions_inside]]
      exact compositionsFor_nodesRecords owner _ body
  | .statement name params location => by
    unfold nodeRecords
    split
    · exact compositionsFor_valueRecords owner params location
    · exact compositionsFor_paramsRecords owner frame name params
  | .declaration content => asked_none_declaration.symm
  | .comment .. => rfl

theorem compositionsFor_nodesRecords (owner : String) (frame : Frame) :
    (nodes : List Node) → compositionsFor owner (nodesRecords context frame nodes) =
      asked context frame none owner (frontedAll nodes)
  | [] => rfl
  | first :: rest => by
    rw [nodesRecords, compositionsFor_append, frontedAll, asked_cons,
      compositionsFor_nodeRecords owner frame first, compositionsFor_nodesRecords owner frame rest]
end

/-! ## The order of compositions -/

theorem filter_isComposing_frontedAll (nodes : List Node) :
    (frontedAll nodes).filter isComposing = nodes.filter isComposing := by
  induction nodes with
  | nil => rfl
  | cons first rest induction =>
    rw [frontedAll, List.filter_cons, List.filter_cons, induction]
    cases first <;> rfl

section

variable {owner : String}

theorem asked_of_bodyless {node : Node} (bodyless : node.body.isEmpty) :
    asked context frame none owner [node] = [] := by
  cases node with
  | rule selector body location | block name params body location =>
    have nothing : body = [] := List.isEmpty_iff.mp bodyless
    simp [asked, leavesAll, leaves, nothing]
  | statement => rfl
  | declaration => exact asked_none_declaration
  | comment => exact asked_comment

theorem asked_front_of_composesFirst {nodes : List Node} (inFront : composesFirst nodes) :
    asked context frame holder owner (front nodes) = asked context frame holder owner nodes := by
  rw [front, asked_append, asked_others]
  induction nodes with
  | nil => rfl
  | cons first rest induction =>
    rw [composesFirst, Bool.and_eq_true, Bool.or_eq_true] at inFront
    have behind := induction inFront.2
    rw [asked_cons _ none, asked_cons _ holder _ _ rest, ← behind, List.filter_cons]
    cases composes : first.isComposing with
    | true =>
      rw [if_pos rfl, asked_cons, asked_none_of_isComposing composes, List.nil_append,
        List.append_assoc]
    | false =>
      have same : asked context frame holder owner [first] =
        asked context frame none owner [first] := asked_of_not_isComposing composes
      rw [if_neg Bool.false_ne_true, same]
      rcases inFront.1 with bodyless | plain
      · rw [asked_of_bodyless bodyless]
        rfl
      · have nothing : rest.filter isComposing = [] := by
          simpa using plain
        rw [nothing]
        rfl

/-- What a rule or a block asks for depends on its body by what that asks for. -/
theorem asked_congr {outer : Enclosure} {node other : Node} {body others : List Node}
    (isNode : node.leaves = (leavesAll body).map (PlacedLeaf.inside outer))
    (isOther : other.leaves = (leavesAll others).map (PlacedLeaf.inside outer))
    (same : ∀ frame holder,
      asked context frame holder owner body = asked context frame holder owner others) :
    asked context frame holder owner [node] = asked context frame holder owner [other] := by
  cases opens context frame holder outer with
  | splices inner goesOn =>
    rw [asked_inside isNode fun _ _ => by rw [goesOn],
      asked_inside isOther fun _ _ => by rw [goesOn], same]
  | stays inner around enclosure goesOn _ =>
    rw [asked_inside isNode fun _ _ => by rw [goesOn, Course.compositions_inside],
      asked_inside isOther fun _ _ => by rw [goesOn, Course.compositions_inside], same]
  | passes ends | drops _ ends | refuses ends =>
    rw [asked_nothing isNode fun _ _ => by rw [ends]; rfl,
      asked_nothing isOther fun _ _ => by rw [ends]; rfl]

mutual
theorem asked_fronted (frame : Frame) (holder : Option (List AnnotatedSelector)) :
    (node : Node) → node.isFronted →
      asked context frame holder owner [node.fronted] = asked context frame holder owner [node]
  | .rule selector body location => by
    intro inFront
    rw [isFronted, Bool.and_eq_true] at inFront
    apply asked_congr rfl rfl
    intro frame holder
    have inside := asked_frontedAll frame none body inFront.2
    rw [← asked_front_of_composesFirst inFront.1, front, front, filter_isComposing_frontedAll,
      asked_append, asked_others, asked_append, asked_others, inside]
  | .block name params body location => fun inFront =>
    asked_congr rfl rfl fun frame holder => asked_frontedAll frame holder body inFront
  | .statement .. | .declaration _ | .comment .. => fun _ => rfl

/-- Where compositions stand in front already, a sheet asks for them in document order. -/
theorem asked_frontedAll (frame : Frame) (holder : Option (List AnnotatedSelector)) :
    (nodes : List Node) → isFrontedAll nodes →
      asked context frame holder owner (frontedAll nodes) = asked context frame holder owner nodes
  | [] => fun _ => rfl
  | first :: rest => by
    intro inFront
    rw [isFrontedAll, Bool.and_eq_true] at inFront
    rw [frontedAll, asked_cons, asked_cons _ _ _ first, asked_fronted frame holder first inFront.1,
      asked_frontedAll frame holder rest inFront.2]
end

end

/-! ## Sheets that are collected -/

/-- What is kept of a sheet, and recorded of it, when it is collected. -/
structure Preserves (context : FileContext) (sheet kept : Stylesheet) (state : ModuleState) :
    Prop where
  /-- The leaves that stay do so in order, each in what stays of the rules and blocks around it. -/
  leaves : leavesAll kept =
    (leavesAll sheet).filterMap (keptLeaf? context ⟨context.mode, false, false⟩ none)
  /-- No leaf stands in a rule that cannot be read. -/
  readable : ∀ placed ∈ leavesAll sheet,
    course context ⟨context.mode, false, false⟩ none placed.leaf placed.around ≠ .refused
  /-- A leaf that is dropped stands in a rule or a block of records. -/
  dropped : ∀ placed ∈ leavesAll sheet,
    course context ⟨context.mode, false, false⟩ none placed.leaf placed.around = .dropped →
    ∃ enclosure ∈ placed.around, enclosure.isMetadata
  /-- A leaf that is owned composes, directly in a rule whose selectors are classes. -/
  owned : ∀ placed ∈ leavesAll sheet, ∀ selectors content,
    course context ⟨context.mode, false, false⟩ none placed.leaf placed.around =
      .owned selectors content →
    placed.leaf = .declaration content ∧ Composition.isComposing content ∧
      (∃ outer selector location mode, placed.around = outer ++ [.rule selector location] ∧
        annotateSelectors selector mode = .ok selectors) ∧
      ∃ owners, selectors.mapM AnnotatedSelector.singleLocalClass? = some owners
  /-- The compositions of a class are those that leaves ask for, the compositions of a rule before
  those of the rules in it. -/
  compositions : ∀ owner, state.compositionsOf owner =
    asked context ⟨context.mode, false, false⟩ none owner (frontedAll sheet)
  permuted : ∀ owner, (state.compositionsOf owner).Perm
    (asked context ⟨context.mode, false, false⟩ none owner sheet)
  inOrder : isFrontedAll sheet → ∀ owner, state.compositionsOf owner =
    asked context ⟨context.mode, false, false⟩ none owner sheet

/-- Collecting loses no style, and records every composition that it takes out of a sheet. -/
theorem collecting_preserves_styles {context : FileContext} {sheet kept : Stylesheet}
    (collected : (run context sheet).1 = .ok kept) :
    Preserves context sheet kept (run context sheet).2.state := by
  rcases run_of_ok context collected with ⟨printed, settled⟩
  have granted := granted_of_run collected
  have compositions (owner : String) : (run context sheet).2.state.compositionsOf owner =
      asked context ⟨context.mode, false, false⟩ none owner (frontedAll sheet) := by
    have same := sameDeclarations_settleLiterals (declaredState context sheet)
      ((declaredState context sheet).imports.map ImportReference.localName)
    rw [settled, ModuleState.compositionsOf, same.compositions, ← ModuleState.compositionsOf,
      declaredState, compositionsOf_replay, sheetRecords, compositionsFor_nodesRecords]
    rfl
  exact {
    leaves := by
      rw [printed]
      exact leavesAll_printedNodes _ none sheet
    readable := by
      intro placed member refused
      have isGranted := granted placed member
      rw [refused] at isGranted
      exact isGranted
    dropped := fun _ _ => isMetadata_of_dropped
    owned := by
      intro placed member selectors content owned
      have isGranted := granted placed member
      rw [owned] at isGranted
      rcases composing_of_owned owned with ⟨isLeaf, composes, outermost | inside⟩
      · cases outermost.2
      · exact ⟨isLeaf, composes, inside, isGranted⟩
    compositions := compositions
    permuted := by
      intro owner
      rw [compositions, asked, asked]
      exact (perm_leavesAll_frontedAll sheet).flatMap_right _
    inOrder := fun inFront owner => by rw [compositions, asked_frontedAll _ _ _ inFront] }

/-- A file in local mode, with names that show that they are scoped. -/
def plainFile : FileContext where
  path := .parse "/x.css"
  namePath := "x.css"
  source := ""
  mode := .locally
  generator := ⟨.custom fun name _ _ => "x_" ++ name, ""⟩
  exportGlobals := false

/-- A class that composes behind a rule of its own that composes, and everything that is taken
apart. -/
def entwined : Stylesheet :=
  parse (".x\x7b\x7d.y\x7b\x7d.a\x7b:global\x7btop:0\x7d.a\x7bcomposes:x\x7dcomposes:y;left:0\x7d" ++
    "/*c*/:import(\"i\")\x7bp:q\x7d@keyframes k\x7bto\x7bright:0\x7d\x7d")

theorem entwined_preserves_styles :
    ∃ kept, (run plainFile entwined).1 = .ok kept ∧
      Preserves plainFile entwined kept (run plainFile entwined).2.state ∧
      render kept = ".x_x\x7b\x7d.x_y\x7b\x7d.x_a\x7btop:0;.x_a\x7b\x7dleft:0\x7d" ++
        "/*c*/@keyframes x_k\x7bto\x7bright:0\x7d\x7d" := by
  have prints : (run plainFile entwined).1.toOption.map render =
      some (".x_x\x7b\x7d.x_y\x7b\x7d.x_a\x7btop:0;.x_a\x7b\x7dleft:0\x7d" ++
        "/*c*/@keyframes x_k\x7bto\x7bright:0\x7d\x7d") := by
    decide +kernel
  cases collected : (run plainFile entwined).1 with
  | error failure =>
    rw [collected] at prints
    cases prints
  | ok kept =>
    rw [collected] at prints
    exact ⟨kept, rfl, collecting_preserves_styles collected, Option.some.inj prints⟩

/-- Compositions are not recorded in document order: those of a rule come before those of the rules
in it, wherever they stand. -/
theorem composition_behind_rule_comes_first :
    ¬ ∀ (context : FileContext) (sheet kept : Stylesheet), (run context sheet).1 = .ok kept →
      ∀ owner, (run context sheet).2.state.compositionsOf owner =
        asked context ⟨context.mode, false, false⟩ none owner sheet := by
  intro claim
  have runs : (run plainFile entwined).1.toOption.isSome ∧
      (run plainFile entwined).2.state.compositionsOf "a" ≠
        asked plainFile ⟨.locally, false, false⟩ none "a" entwined := by
    decide +kernel
  rcases runs with ⟨succeeds, differs⟩
  cases collected : (run plainFile entwined).1 with
  | error failure =>
    rw [collected] at succeeds
    cases succeeds
  | ok kept => exact differs (claim plainFile entwined kept collected "a")

end Collect

end ScopedStyles
