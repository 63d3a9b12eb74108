import ScopedStyles.Sheet.Event

/-!
Building the tree of a stylesheet from its events. Blocks that are still open at the end are closed
there, and a closing brace without a block is ignored.
-/

namespace ScopedStyles

structure OpenBlock where
  opening : Opening
  before : List Node
deriving Repr

namespace OpenBlock

def close (openBlock : OpenBlock) (nodes : List Node) : List Node :=
  openBlock.opening.close nodes.reverse :: openBlock.before

def closeAll (nodes : List Node) (openBlocks : List OpenBlock) : List Node :=
  openBlocks.foldl (fun nodes openBlock => openBlock.close nodes) nodes

end OpenBlock

namespace Node

/-- Build nodes from events, inside the open blocks and behind `nodes`, which stand last one
first. -/
def build (openBlocks : List OpenBlock) (nodes : List Node) : List Event → List Node
  | [] => (OpenBlock.closeAll nodes openBlocks).reverse
  | .opens opening :: events => build (⟨opening, nodes⟩ :: openBlocks) [] events
  | .leaf node :: events => build openBlocks (node :: nodes) events
  | .closes :: events =>
    match openBlocks with
    | [] => build [] nodes events
    | innermost :: outer => build outer (innermost.close nodes) events

def ofEvents (events : List Event) : List Node :=
  build [] [] events

end Node

def parse (source : String) : Stylesheet :=
  Node.ofEvents (Event.scan (locateText source))

example : (parse "\n  .a \x7b \x7d").map Node.location = [⟨3, 2, 3⟩] := by decide +kernel

end ScopedStyles
