import ScopedStyles.Text.Character
import ScopedStyles.Text.Location

/-!
Stylesheets as trees. A sheet is a list of nodes; rules and block at-rules hold lists of their own.
Nothing is checked against the grammar of properties and values: a node keeps its texts as they
were written, trimmed.
-/

namespace ScopedStyles

/-- `property: value`. A stray statement without a colon keeps its text in `property`. -/
structure Declaration where
  property : String
  value : Option String
  location : Location
deriving DecidableEq, Repr, Inhabited

namespace Declaration

/-- The property in the form that keywords are compared with. -/
def name (declaration : Declaration) : String :=
  Text.lowerAscii (Text.trim declaration.property)

def valueText (declaration : Declaration) : String :=
  declaration.value.getD ""

end Declaration

inductive Node where
  | rule (selector : String) (body : List Node) (location : Location)
  | block (name params : String) (body : List Node) (location : Location)
  | statement (name params : String) (location : Location)
  | declaration (content : Declaration)
  | comment (text : String) (location : Location)
deriving Repr, Inhabited

abbrev Stylesheet := List Node

namespace Node

def location : Node → Location
  | .rule _ _ location => location
  | .block _ _ _ location => location
  | .statement _ _ location => location
  | .declaration content => content.location
  | .comment _ location => location

def body : Node → List Node
  | .rule _ body _ => body
  | .block _ _ body _ => body
  | _ => []

def isDeclaration : Node → Bool
  | .declaration _ => true
  | _ => false

def declaration? : Node → Option Declaration
  | .declaration content => some content
  | _ => none

end Node

def declarationsOf (nodes : List Node) : List Declaration :=
  nodes.filterMap Node.declaration?

end ScopedStyles
