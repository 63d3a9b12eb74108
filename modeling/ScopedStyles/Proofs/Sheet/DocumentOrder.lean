import ScopedStyles.Sheet.Parse

/-!
Document order: each node before the nodes inside it, and these before the nodes that follow. The
tree that is built from events has its nodes in the order of the events, wherever blocks are closed,
left open or closed once too often.
-/

namespace ScopedStyles

namespace Node

mutual
/-- A node and the nodes inside it, in document order. -/
def preorder : Node → List Node
  | .rule selector body location => .rule selector body location :: preorderAll body
  | .block name params body location => .block name params body location :: preorderAll body
  | .statement name params location => [.statement name params location]
  | .declaration content => [.declaration content]
  | .comment text location => [.comment text location]

/-- The nodes of a sheet, in document order. -/
def preorderAll : List Node → List Node
  | [] => []
  | first :: rest => first.preorder ++ preorderAll rest
end

theorem preorderAll_append (first second : List Node) :
    preorderAll (first ++ second) = preorderAll first ++ preorderAll second := by
  induction first with
  | nil => rfl
  | cons node rest induction =>
    rw [List.cons_append, preorderAll, preorderAll, induction, List.append_assoc]

theorem preorderAll_concat (nodes : List Node) (last : Node) :
    preorderAll (nodes ++ [last]) = preorderAll nodes ++ last.preorder := by
  rw [preorderAll_append, preorderAll, preorderAll, List.append_nil]

def bare : Node → Node
  | .rule selector _ location => .rule selector [] location
  | .block name params _ location => .block name params [] location
  | node => node

/-- The nodes of a sheet, in document order and each on its own. -/
def outline (nodes : List Node) : List Node :=
  (preorderAll nodes).map bare

theorem outline_concat (nodes : List Node) (last : Node) :
    outline (nodes ++ [last]) = outline nodes ++ last.preorder.map bare := by
  rw [outline, preorderAll_concat, List.map_append, outline]

theorem bare_preorder_close (opening : Opening) (body : List Node) :
    (opening.close body).preorder.map bare = opening.close [] :: outline body := by
  cases opening <;> rfl

end Node

/-! ## Nodes of events -/

def Event.nodes : Event → List Node
  | .opens opening => [opening.close []]
  | .leaf node => node.preorder.map Node.bare
  | .closes => []

/-- The nodes that begin with the events of a list. -/
def Event.nodesOf (events : List Event) : List Node :=
  events.flatMap Event.nodes

namespace OpenBlock

/-- The nodes before the first one inside some open blocks, the heads of these blocks included. -/
def outlineBefore : List OpenBlock → List Node
  | [] => []
  | innermost :: outer =>
    outlineBefore outer ++ Node.outline innermost.before.reverse ++ [innermost.opening.close []]

theorem outline_close (innermost : OpenBlock) (outer : List OpenBlock) (nodes : List Node) :
    outlineBefore outer ++ Node.outline (innermost.close nodes).reverse =
      outlineBefore (innermost :: outer) ++ Node.outline nodes.reverse := by
  rw [close, List.reverse_cons, Node.outline_concat, Node.bare_preorder_close, outlineBefore]
  simp

theorem outline_closeAll (openBlocks : List OpenBlock) (nodes : List Node) :
    Node.outline (closeAll nodes openBlocks).reverse =
      outlineBefore openBlocks ++ Node.outline nodes.reverse := by
  induction openBlocks generalizing nodes with
  | nil => rfl
  | cons innermost outer induction =>
    rw [← outline_close, ← induction]
    rfl

end OpenBlock

namespace Node

theorem outline_build (openBlocks : List OpenBlock) (nodes : List Node) (events : List Event) :
    outline (build openBlocks nodes events) =
      OpenBlock.outlineBefore openBlocks ++ outline nodes.reverse ++ Event.nodesOf events := by
  induction events generalizing openBlocks nodes with
  | nil =>
    rw [build, OpenBlock.outline_closeAll, Event.nodesOf, List.flatMap_nil, List.append_nil]
  | cons event events induction =>
    rw [Event.nodesOf, List.flatMap_cons, ← Event.nodesOf, ← List.append_assoc]
    cases event with
    | opens opening =>
      rw [build, induction, OpenBlock.outlineBefore]
      exact congrArg (· ++ Event.nodesOf events) (List.append_nil _)
    | leaf node =>
      rw [build, induction, List.reverse_cons, outline_concat, ← List.append_assoc]
      rfl
    | closes =>
      rw [Event.nodes, List.append_nil]
      cases openBlocks with
      | nil => rw [build, induction]
      | cons innermost outer => rw [build, induction, OpenBlock.outline_close]

theorem outline_parse (source : String) :
    outline (parse source) = Event.nodesOf (Event.scan (locateText source)) :=
  outline_build [] [] (Event.scan (locateText source))

end Node

end ScopedStyles
