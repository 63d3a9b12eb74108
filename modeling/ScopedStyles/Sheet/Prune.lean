import ScopedStyles.Sheet.Node
import ScopedStyles.Keyframes

/-!
Dropping empty rules. A rule without nodes goes, and so does a block at-rule that loses its last
node by that. A block that was written empty stays, and keyframes are kept as written.
-/

namespace ScopedStyles.Node

mutual
def prune : Node → Option Node
  | .rule selector body location =>
    let kept := pruneAll body
    if kept.isEmpty then none else some (.rule selector kept location)
  | .block name params body location =>
    if Keyframes.isKeyframes name || body.isEmpty then some (.block name params body location)
    else
      let kept := pruneAll body
      if kept.isEmpty then none else some (.block name params kept location)
  | node => some node

def pruneAll : List Node → List Node
  | [] => []
  | node :: rest =>
    match node.prune with
    | some kept => kept :: pruneAll rest
    | none => pruneAll rest
end

end ScopedStyles.Node
