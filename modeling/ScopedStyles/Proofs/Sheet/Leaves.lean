import ScopedStyles.Proofs.Sheet.Contents

/-!
The declarations and comments of a sheet, in document order, each with the rules and blocks that it
stands in. Substitution takes each of them to one in the same place, and pruning loses none, since
it drops what holds nothing.
-/

namespace ScopedStyles

namespace Node

/-- A rule or a block that something stands in. -/
inductive Enclosure where
  | rule (selector : String) (location : Location)
  | block (name params : String) (location : Location)
deriving DecidableEq, Repr

inductive Leaf where
  | declaration (content : Declaration)
  | comment (text : String) (location : Location)
deriving DecidableEq, Repr

/-- A leaf in its place; what it stands in comes outermost first. -/
structure PlacedLeaf where
  around : List Enclosure
  leaf : Leaf
deriving DecidableEq, Repr

/-- A placed leaf seen from outside one more rule or block. -/
def PlacedLeaf.inside (enclosure : Enclosure) (placed : PlacedLeaf) : PlacedLeaf :=
  ⟨enclosure :: placed.around, placed.leaf⟩

mutual
def leaves : Node → List PlacedLeaf
  | .rule selector body location =>
    (leavesAll body).map (PlacedLeaf.inside (.rule selector location))
  | .block name params body location =>
    (leavesAll body).map (PlacedLeaf.inside (.block name params location))
  | .statement .. => []
  | .declaration content => [⟨[], .declaration content⟩]
  | .comment text location => [⟨[], .comment text location⟩]

/-- The leaves of a list of nodes, in document order. -/
def leavesAll : List Node → List PlacedLeaf
  | [] => []
  | first :: rest => first.leaves ++ leavesAll rest
end

theorem leavesAll_eq_flatMap (nodes : List Node) : leavesAll nodes = nodes.flatMap leaves := by
  induction nodes with
  | nil => rfl
  | cons first rest induction => rw [leavesAll, List.flatMap_cons, induction]

theorem leavesAll_append (first second : List Node) :
    leavesAll (first ++ second) = leavesAll first ++ leavesAll second := by
  simp [leavesAll_eq_flatMap]

theorem leavesAll_singleton (node : Node) : leavesAll [node] = node.leaves := by
  simp [leavesAll]

/-! ## Pruning -/

mutual
theorem leaves_prune :
    (node : Node) → (node.prune.map leaves).getD [] = node.leaves
  | .rule selector body location => by
    have inside := leavesAll_pruneAll body
    unfold prune leaves
    dsimp only
    split
    · rename_i nothing
      rw [← inside, List.isEmpty_iff.mp nothing]
      rfl
    · rw [← inside]
      rfl
  | .block name params body location => by
    have inside := leavesAll_pruneAll body
    unfold prune
    split
    · rfl
    dsimp only
    split
    · rename_i nothing
      rw [leaves, ← inside, List.isEmpty_iff.mp nothing]
      rfl
    · rw [leaves, ← inside]
      rfl
  | .statement .. | .declaration _ | .comment .. => rfl

theorem leavesAll_pruneAll : (nodes : List Node) → leavesAll (pruneAll nodes) = leavesAll nodes
  | [] => rfl
  | first :: rest => by
    have pruned := leaves_prune first
    have behind := leavesAll_pruneAll rest
    unfold pruneAll
    rw [leavesAll, ← pruned, ← behind]
    cases first.prune <;> rfl
end

end Node

/-! ## Substitution -/

namespace Substitution

open Node

def enclosure (state : ModuleState) : Enclosure → Enclosure
  | .rule selector location => .rule selector location
  | .block name text location => .block name (params state name text) location

def leaf (state : ModuleState) : Leaf → Leaf
  | .declaration content => .declaration (declaration state content)
  | .comment text location => .comment text location

def placedLeaf (state : ModuleState) (placed : PlacedLeaf) : PlacedLeaf :=
  ⟨placed.around.map (enclosure state), leaf state placed.leaf⟩

theorem placedLeaf_comp_inside (state : ModuleState) (outer : Enclosure) :
    placedLeaf state ∘ PlacedLeaf.inside outer =
      PlacedLeaf.inside (enclosure state outer) ∘ placedLeaf state := rfl

mutual
theorem leaves_node (state : ModuleState) :
    (item : Node) → (node state item).leaves = item.leaves.map (placedLeaf state)
  | .rule selector body location => by
    rw [node, leaves, leaves, leavesAll_nodes state body, List.map_map, List.map_map,
      placedLeaf_comp_inside]
    rfl
  | .block name text body location => by
    rw [node, leaves, leaves, leavesAll_nodes state body, List.map_map, List.map_map,
      placedLeaf_comp_inside]
    rfl
  | .statement .. | .declaration _ | .comment .. => rfl

theorem leavesAll_nodes (state : ModuleState) :
    (items : List Node) →
      leavesAll (nodes state items) = (leavesAll items).map (placedLeaf state)
  | [] => rfl
  | first :: rest => by
    rw [nodes, leavesAll, leavesAll, List.map_append, leaves_node state first,
      leavesAll_nodes state rest]
end

end Substitution

end ScopedStyles
