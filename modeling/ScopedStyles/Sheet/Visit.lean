import ScopedStyles.Sheet.Node

/-!
Walking over a stylesheet in document order. A visitor says what to do at each kind of node, and
whether to go into the block of a rule or an at-rule; its effects may end the walk.
-/

namespace ScopedStyles

/-- What to do at each kind of node; the answer at a rule or an at-rule says whether its block is
visited. -/
structure Visitor (m : Type → Type) where
  rule : (selector : String) → m Bool
  atRule : (name : String) → m Bool
  declaration : Declaration → m Unit
  comment : (text : String) → m Unit

namespace Visitor

def silent [Pure m] : Visitor m where
  rule _ := pure true
  atRule _ := pure true
  declaration _ := pure ()
  comment _ := pure ()

mutual
def visit [Monad m] (visitor : Visitor m) : Node → m Unit
  | .rule selector body _ => do
    if ← visitor.rule selector then visitor.visitAll body
  | .block name _ body _ => do
    if ← visitor.atRule name then visitor.visitAll body
  | .statement name _ _ => do
    let _ ← visitor.atRule name
  | .declaration content => visitor.declaration content
  | .comment text _ => visitor.comment text

def visitAll [Monad m] (visitor : Visitor m) : List Node → m Unit
  | [] => pure ()
  | node :: rest => do
    visitor.visit node
    visitor.visitAll rest
end

end Visitor

/-! ## Outlines

An outline lists what a walk comes across, one line per node, and stops at a property. -/

namespace Outline

abbrev Walk := ExceptT String (StateM (List String))

def write (line : String) : Walk Unit :=
  modify (· ++ [line])

def stopAt (stop : Option String) (content : Declaration) : Walk Unit :=
  if stop = some content.name then throw content.property else pure ()

def nodes (stop : Option String) (skipRules skipAtRules : Bool) : Visitor Walk where
  rule selector := do
    write ("rule " ++ selector)
    pure !skipRules
  atRule name := do
    write ("atrule " ++ name)
    pure !skipAtRules
  declaration content := do
    write ("decl " ++ content.name)
    stopAt stop content
  comment text := write ("comment " ++ text)

def properties (stop : Option String) : Visitor Walk :=
  { Visitor.silent with
    declaration := fun content => do
      write content.property
      stopAt stop content }

def of (visitor : Visitor Walk) (sheet : Stylesheet) : List String × Option String :=
  match (visitor.visitAll sheet).run.run [] with
  | (.ok _, lines) => (lines, none)
  | (.error property, lines) => (lines, some property)

end Outline

end ScopedStyles
