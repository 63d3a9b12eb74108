import ScopedStyles.Sheet.Prune

/-!
What pruning leaves of a sheet. Outside keyframes every node of the pruned sheet is what is left of
one node of the sheet, in document order. So pruning takes out exactly the rules and blocks that
hold nothing in the end, and nothing that is written into the sheet for its own sake goes with
them.
-/

namespace ScopedStyles.Node

/-! ## Nodes outside keyframes -/

mutual
/-- A node and the nodes inside it, in document order, without those inside keyframes. -/
def outsideKeyframes : Node → List Node
  | .rule selector body location => .rule selector body location :: allOutsideKeyframes body
  | .block name params body location =>
    .block name params body location ::
      if Keyframes.isKeyframes name then [] else allOutsideKeyframes body
  | .statement name params location => [.statement name params location]
  | .declaration content => [.declaration content]
  | .comment text location => [.comment text location]

def allOutsideKeyframes : List Node → List Node
  | [] => []
  | first :: rest => first.outsideKeyframes ++ allOutsideKeyframes rest
end

/-- Whether a node is a declaration, a comment, an at-rule without a block, or keyframes. -/
def isLasting : Node → Bool
  | .rule .. => false
  | .block name _ _ _ => Keyframes.isKeyframes name
  | .statement .. | .declaration _ | .comment .. => true

/-- Whether a node is an at-rule with an empty block that is not of keyframes. -/
def isEmptyBlock : Node → Bool
  | .block name _ body _ => !Keyframes.isKeyframes name && body.isEmpty
  | _ => false

theorem allOutsideKeyframes_append (first second : List Node) :
    allOutsideKeyframes (first ++ second) =
      allOutsideKeyframes first ++ allOutsideKeyframes second := by
  induction first with
  | nil => rfl
  | cons node rest induction =>
    simp only [List.cons_append, allOutsideKeyframes, induction, List.append_assoc]

/-! ## What is left of one node -/

/-- What can be left of a node: itself, or a rule or a block that is not empty. -/
inductive LeftOf : Node → Node → Prop
  | same {node : Node} (stays : node.isLasting ∨ node.isEmptyBlock) : LeftOf node node
  | rule {selector : String} {body : List Node} {location : Location}
      (filled : pruneAll body ≠ []) :
      LeftOf (.rule selector body location) (.rule selector (pruneAll body) location)
  | block {name params : String} {body : List Node} {location : Location}
      (noKeyframes : ¬ Keyframes.isKeyframes name) (filled : pruneAll body ≠ []) :
      LeftOf (.block name params body location) (.block name params (pruneAll body) location)

section

variable {node kept : Node} {selector name params : String} {body : List Node}
  {location : Location}

theorem prune_rule : prune (.rule selector body location) =
    if pruneAll body = [] then none else some (.rule selector (pruneAll body) location) := by
  simp [prune]

theorem prune_block : prune (.block name params body location) =
    if Keyframes.isKeyframes name ∨ body = [] then some (.block name params body location)
    else if pruneAll body = [] then none
    else some (.block name params (pruneAll body) location) := by
  simp [prune]

/-- What lasts stays as it is, and so does a block that was written empty. -/
theorem prune_of_stays (stays : node.isLasting ∨ node.isEmptyBlock) : node.prune = some node := by
  cases node with
  | rule => simp [isLasting, isEmptyBlock] at stays
  | block name params body location =>
    have written : Keyframes.isKeyframes name ∨ body = [] := by
      simp only [isLasting, isEmptyBlock, Bool.and_eq_true, List.isEmpty_iff] at stays
      exact stays.imp_right And.right
    rw [prune_block, if_pos written]
  | statement | declaration | comment => rfl

theorem leftOf_of_prune (left : node.prune = some kept) : LeftOf node kept := by
  cases node with
  | rule selector body location =>
    rw [prune_rule] at left
    split at left
    · cases left
    · rename_i filled
      cases left
      exact .rule filled
  | block name params body location =>
    rw [prune_block] at left
    split at left
    · rename_i written
      cases left
      apply LeftOf.same
      by_cases isKeyframes : Keyframes.isKeyframes name
      · exact .inl isKeyframes
      · simp [isEmptyBlock, isKeyframes, written.resolve_left isKeyframes]
    · rename_i unwritten
      split at left
      · cases left
      · rename_i filled
        cases left
        exact .block (not_or.mp unwritten).1 filled
  | statement | declaration | comment =>
    cases left
    exact .same (.inl rfl)

theorem LeftOf.isLasting_eq (left : LeftOf node kept) : kept.isLasting = node.isLasting := by
  cases left <;> rfl

theorem LeftOf.isEmptyBlock_eq (left : LeftOf node kept) :
    kept.isEmptyBlock = node.isEmptyBlock := by
  cases left with
  | same => rfl
  | rule => rfl
  | @block _ _ body _ noKeyframes filled =>
    have wasFilled : body ≠ [] := by
      rintro rfl
      exact filled rfl
    simp [isEmptyBlock, List.isEmpty_eq_false_iff.mpr filled,
      List.isEmpty_eq_false_iff.mpr wasFilled]

theorem LeftOf.ne_nil (left : LeftOf node (.rule selector body location)) : body ≠ [] := by
  cases left with
  | same stays => simp [isLasting, isEmptyBlock] at stays
  | rule filled => exact filled

end

/-! ## What is left of a sheet -/

theorem pruneAll_cons (first : Node) (rest : List Node) :
    pruneAll (first :: rest) = first.prune.toList ++ pruneAll rest := by
  rw [pruneAll]
  cases first.prune <;> rfl

theorem allOutsideKeyframes_toList_some (node : Node) :
    allOutsideKeyframes (some node).toList = node.outsideKeyframes := by
  simp [allOutsideKeyframes]

mutual
/-- The nodes that are left of a node are what is left of it and of the nodes inside it. -/
theorem outsideKeyframes_prune :
    (node : Node) →
      allOutsideKeyframes node.prune.toList = node.outsideKeyframes.filterMap prune
  | .rule selector body location => by
    have inside := allOutsideKeyframes_pruneAll body
    rw [outsideKeyframes, List.filterMap_cons, ← inside, prune_rule]
    by_cases nothing : pruneAll body = []
    · simp [nothing, allOutsideKeyframes]
    · rw [if_neg nothing, allOutsideKeyframes_toList_some, outsideKeyframes]
  | .block name params body location => by
    have inside := allOutsideKeyframes_pruneAll body
    rw [outsideKeyframes, List.filterMap_cons, prune_block]
    by_cases isKeyframes : Keyframes.isKeyframes name
    · simp [isKeyframes, allOutsideKeyframes, outsideKeyframes]
    rw [if_neg isKeyframes, ← inside]
    by_cases written : body = []
    · simp [isKeyframes, written, allOutsideKeyframes, outsideKeyframes, pruneAll]
    rw [if_neg (not_or.mpr ⟨isKeyframes, written⟩)]
    by_cases nothing : pruneAll body = []
    · simp [nothing, allOutsideKeyframes]
    · rw [if_neg nothing, allOutsideKeyframes_toList_some, outsideKeyframes, if_neg isKeyframes]
  | .statement .. | .declaration _ | .comment .. => rfl

/-- The nodes of a pruned sheet are what is left of the nodes of the sheet. -/
theorem allOutsideKeyframes_pruneAll :
    (nodes : List Node) →
      allOutsideKeyframes (pruneAll nodes) = (allOutsideKeyframes nodes).filterMap prune
  | [] => rfl
  | first :: rest => by
    rw [pruneAll_cons, allOutsideKeyframes_append, outsideKeyframes_prune first,
      allOutsideKeyframes_pruneAll rest, allOutsideKeyframes, List.filterMap_append]
end

/-- A kind of nodes that pruning leaves as they are, and makes no other node into. -/
theorem filter_pruneAll {test : Node → Bool}
    (stays : ∀ node, test node → node.isLasting ∨ node.isEmptyBlock)
    (same : ∀ node kept, LeftOf node kept → test kept = test node) (nodes : List Node) :
    (allOutsideKeyframes (pruneAll nodes)).filter test =
      (allOutsideKeyframes nodes).filter test := by
  rw [allOutsideKeyframes_pruneAll]
  induction allOutsideKeyframes nodes with
  | nil => rfl
  | cons first rest induction =>
    rw [List.filterMap_cons]
    cases left : first.prune with
    | none =>
      have gone : ¬ test first := by
        intro holds
        rw [prune_of_stays (stays first holds)] at left
        cases left
      rw [List.filter_cons_of_neg gone]
      exact induction
    | some kept =>
      have sameTest := same first kept (leftOf_of_prune left)
      dsimp only
      by_cases holds : test first
      · have unchanged : first = kept :=
          Option.some.inj ((prune_of_stays (stays first holds)).symm.trans left)
        rw [← unchanged, List.filter_cons_of_pos holds, List.filter_cons_of_pos holds, induction]
      · rw [List.filter_cons_of_neg holds, List.filter_cons_of_neg (by rwa [sameTest]), induction]

theorem not_stays_of_prune {node inside : Node} (gone : node.prune = none)
    (member : inside ∈ node.outsideKeyframes) : ¬ (inside.isLasting ∨ inside.isEmptyBlock) := by
  intro stays
  have nothing := outsideKeyframes_prune node
  rw [gone] at nothing
  have left : inside ∈ node.outsideKeyframes.filterMap prune :=
    List.mem_filterMap.mpr ⟨inside, member, prune_of_stays stays⟩
  rw [← nothing] at left
  cases left

mutual
theorem prune_prune : (node : Node) → node.prune.bind prune = node.prune
  | .rule selector body location => by
    rw [prune_rule]
    split
    · rfl
    · rename_i filled
      rw [Option.bind_some, prune_rule, pruneAll_pruneAll body, if_neg filled]
  | .block name params body location => by
    have again := pruneAll_pruneAll body
    cases left : prune (.block name params body location) with
    | none => rfl
    | some kept =>
      rw [Option.bind_some]
      cases leftOf_of_prune left with
      | same => exact left
      | block noKeyframes filled =>
        rw [prune_block, again, if_neg (not_or.mpr ⟨noKeyframes, filled⟩), if_neg filled]
  | .statement .. | .declaration _ | .comment .. => rfl

theorem pruneAll_pruneAll : (nodes : List Node) → pruneAll (pruneAll nodes) = pruneAll nodes
  | [] => rfl
  | first :: rest => by
    have again := prune_prune first
    rw [pruneAll_cons]
    cases left : first.prune with
    | none => exact pruneAll_pruneAll rest
    | some kept =>
      rw [left, Option.bind_some] at again
      simp only [Option.toList_some, List.singleton_append, pruneAll_cons, again,
        pruneAll_pruneAll rest]
end

/-- Pruning takes out what holds nothing, and no more. Outside keyframes it leaves no empty rule,
and no empty block but those that were written empty, all of which stay; the declarations,
comments, at-rules without a block and whole keyframes are those of the sheet, in order; none of
them is inside a node that goes; and pruning again changes nothing. -/
theorem pruning_is_exact (nodes : List Node) :
    (∀ selector location,
        .rule selector [] location ∉ allOutsideKeyframes (pruneAll nodes)) ∧
      (allOutsideKeyframes (pruneAll nodes)).filter isEmptyBlock =
        (allOutsideKeyframes nodes).filter isEmptyBlock ∧
      (allOutsideKeyframes (pruneAll nodes)).filter isLasting =
        (allOutsideKeyframes nodes).filter isLasting ∧
      allOutsideKeyframes (pruneAll nodes) = (allOutsideKeyframes nodes).filterMap prune ∧
      (∀ node ∈ allOutsideKeyframes nodes, node.prune = none →
        ∀ inside ∈ node.outsideKeyframes, ¬ inside.isLasting ∧ ¬ inside.isEmptyBlock) ∧
      pruneAll (pruneAll nodes) = pruneAll nodes := by
  refine ⟨?_, ?_, ?_, allOutsideKeyframes_pruneAll nodes, ?_, pruneAll_pruneAll nodes⟩
  · intro selector location member
    rw [allOutsideKeyframes_pruneAll] at member
    rcases List.mem_filterMap.mp member with ⟨node, _, left⟩
    exact (leftOf_of_prune left).ne_nil rfl
  · exact filter_pruneAll (fun _ => .inr) (fun _ _ left => left.isEmptyBlock_eq) nodes
  · exact filter_pruneAll (fun _ => .inl) (fun _ _ left => left.isLasting_eq) nodes
  · intro node _ gone inside member
    exact not_or.mp (not_stays_of_prune gone member)

end ScopedStyles.Node
