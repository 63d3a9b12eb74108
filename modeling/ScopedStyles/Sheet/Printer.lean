import ScopedStyles.Sheet.Node

/-!
The compact text of a stylesheet: no white space of its own, and a semicolon behind a declaration
only when another node follows it.
-/

namespace ScopedStyles

namespace Node

/-- Behind the name of an at-rule, its parameters and the space before them. -/
def printParams (params : String) : List Char :=
  if params.isEmpty then [] else ' ' :: params.toList

def printDeclaration (content : Declaration) : List Char :=
  content.property.toList ++
    match content.value with
    | some value => ':' :: value.toList
    | none => []

mutual
def print : Node → List Char
  | .rule selector body _ => selector.toList ++ '{' :: printAll body ++ ['}']
  | .block name params body _ =>
    '@' :: name.toList ++ printParams params ++ '{' :: printAll body ++ ['}']
  | .statement name params _ => '@' :: name.toList ++ printParams params ++ [';']
  | .declaration content => printDeclaration content
  | .comment text _ => ['/', '*'] ++ text.toList ++ ['*', '/']

def printAll : List Node → List Char
  | [] => []
  | node :: rest =>
    node.print ++ (if node.isDeclaration && !rest.isEmpty then [';'] else []) ++ printAll rest
end

end Node

def render (nodes : List Node) : String :=
  String.ofList (Node.printAll nodes)

example :
    render [.rule ".a" [.declaration ⟨"color", some "red", .start⟩,
      .declaration ⟨"margin", some "0", .start⟩] .start] = ".a\x7bcolor:red;margin:0\x7d" := by
  decide

end ScopedStyles
