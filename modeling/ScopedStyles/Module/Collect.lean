import ScopedStyles.Failure
import ScopedStyles.Module.Settlement
import ScopedStyles.Module.ValueRule
import ScopedStyles.ScopedName.Generator
import ScopedStyles.Selector.Annotation

/-!
Collecting what a file declares. One walk over the sheet scopes selectors and keyframes, records
imports, exports, values and compositions, and takes the rules and declarations that are only
records out of the sheet. It looks at nothing but the file itself. What was recorded before a
failure stays recorded.
-/

namespace ScopedStyles

open Text

structure FileContext where
  path : Path
  namePath : String
  source : String
  mode : Mode
  generator : NameGenerator
  exportGlobals : Bool

def FileContext.scopedName (context : FileContext) (name : String) : String :=
  context.generator.generate name context.namePath context.source

structure Frame where
  mode : Mode
  /-- A rule around the node has a local name in every selector. -/
  inPureRule : Bool
  inKeyframes : Bool
deriving DecidableEq, Repr

structure Collection where
  state : ModuleState
  malformed : List (Location × String)
deriving DecidableEq, Repr

def Collection.empty : Collection := ⟨.empty, []⟩

abbrev Collecting := ExceptT Failure (StateM Collection)

namespace Collect

def update (change : ModuleState → ModuleState) : Collecting Unit :=
  modify fun collection => { collection with state := change collection.state }

def fail (context : FileContext) (location : Location) (cause : Cause) : Collecting α :=
  throw ⟨context.path, location, cause⟩

/-! ## Records -/

def importSpecifier? (selector : String) : Option String :=
  let text := trimCharacters selector.toList
  if ":import(".toList.isPrefixOf text then
    let inside := (text.drop 8).dropWhile isBlank
    let closes (behind : List Char) : Bool := behind.dropWhile isBlank == [')']
    match inside with
    | [] => none
    | first :: rest =>
      if isQuote first then
        if closes ((rest.dropWhile (· ≠ first)).drop 1) then
          some (String.ofList (rest.takeWhile (· ≠ first)))
        else none
      else
        let isBare (character : Char) : Bool :=
          !(isBlank character || isQuote character || character == ')')
        let bare := inside.takeWhile isBare
        if !bare.isEmpty && closes (inside.dropWhile isBare) then some (String.ofList bare)
        else none
  else none

example : importSpecifier? ":import( './a b.css' )" = some "./a b.css" := by decide +kernel
example : importSpecifier? ":import(a.css)" = some "a.css" := by decide +kernel
example : importSpecifier? ":import()" = none := by decide +kernel

/-- The import that a declaration of an import rule stands for; one side left blank is none. -/
def importReference? (specifier : String) (content : Declaration) : Option ImportReference :=
  let localName := trim content.property
  let imported := trim content.valueText
  if localName.isEmpty || imported.isEmpty then none
  else some ⟨specifier, imported, localName, content.location⟩

def recordImports (specifier : String) (body : List Node) : Collecting Unit :=
  update fun state =>
    ((declarationsOf body).filterMap (importReference? specifier)).foldl
      ModuleState.recordImport state

def exportedLiteral (content : Declaration) : String × Literal :=
  (trim content.property, ⟨content.valueText, false, content.location⟩)

def recordExports (body : List Node) : Collecting Unit :=
  update fun state =>
    ((declarationsOf body).map exportedLiteral).foldl
      (fun state (name, literal) => state.recordLiteral name literal) state

/-- The path that a value of this file holds, which must have been defined before. -/
def valuePath (context : FileContext) (location : Location) (name : String) :
    Collecting String := do
  match (← get).state.literals.get? name with
  | some literal =>
    if literal.isValue then pure (unquote literal.raw)
    else fail context location (.unresolved name "no value with that name holds a path")
  | none => fail context location (.unresolved name "no value with that name holds a path")

def recordValue (context : FileContext) (params : String) (location : Location) :
    Collecting Unit := do
  match ValueRule.parse params with
  | none =>
    modify fun collection =>
      { collection with malformed := collection.malformed ++ [(location, params)] }
  | some (.definition name value) =>
    update fun state => state.recordLiteral name ⟨value, true, location⟩
  | some (.imports names source) => do
    let specifier ←
      match source with
      | .path specifier => pure specifier
      | .value name => valuePath context location name
    update fun state =>
      names.foldl
        (fun state name =>
          state.recordValueImport ⟨specifier, name.imported, name.localName, location⟩)
        state

/-! ## Scoping -/

def declareSegment (context : FileContext) (state : ModuleState) :
    Selector.Segment → ModuleState
  | .name _ name _ true => state.declareLocal name (context.scopedName name)
  | .name _ name _ false => if context.exportGlobals then state.declareGlobal name else state
  | .text _ => state

def declareNames (context : FileContext) (selectors : List AnnotatedSelector)
    (state : ModuleState) : ModuleState :=
  (selectors.flatMap AnnotatedSelector.segments).foldl (declareSegment context) state

/-- Record the compositions that stand directly in a rule, for the class of each of its selectors;
every selector has to be a single local class if there is one. -/
def recordCompositions (context : FileContext) (selector : String)
    (selectors : List AnnotatedSelector) (body : List Node) : Collecting Unit :=
  ((declarationsOf body).filter Composition.isComposing).forM fun content =>
    match selectors.mapM AnnotatedSelector.singleLocalClass? with
    | none => fail context content.location (.invalidComposition selector)
    | some owners =>
      update fun state =>
        owners.foldl (fun state owner =>
          state.recordComposition (.ofDeclaration content) owner) state

def isChecked (context : FileContext) (frame : Frame) : Bool :=
  context.mode = .purely && frame.mode ≠ .globalBlock && !frame.inPureRule

def scopeRule (context : FileContext) (frame : Frame) (selector : String) (body : List Node)
    (location : Location) : Collecting (List AnnotatedSelector) := do
  match annotateSelectors selector frame.mode with
  | .error nested => fail context location (.nestedWrapper nested.selector)
  | .ok selectors =>
    if isChecked context frame && !selectors.all AnnotatedSelector.hasLocal then
      fail context location (.impure selector)
    else
      update (declareNames context selectors)
      recordCompositions context selector selectors body
      pure selectors

def scopeKeyframes (context : FileContext) (mode : Mode) (params : String) :
    Collecting String := do
  let header := Keyframes.readHeader params mode.isLocal
  if header.isLocal then
    let generated := context.scopedName header.name
    update fun state => state.recordKeyframes header.name generated
    pure generated
  else
    if context.exportGlobals && !(header.name.toList.head?.map isQuote).getD false then
      update fun state => state.declareGlobal header.name
    pure header.name

def isValueRule (name : String) : Bool :=
  lowerAscii name = "value"

def scopeParams (context : FileContext) (frame : Frame) (name params : String) :
    Collecting String :=
  if Keyframes.isKeyframes name then scopeKeyframes context frame.mode params else pure params

/-! ## The walk -/

mutual
/-- What a node becomes; `inRule` says that it stands directly in a scoped rule, where
compositions have been recorded already. -/
def node (context : FileContext) (frame : Frame) (inRule : Bool) : Node → Collecting (List Node)
  | .rule selector body location =>
    match Mode.ofBlockSelector? selector with
    | some mode =>
      if frame.mode.isBlock then fail context location (.nestedWrapper (trim selector))
      else nodes context { frame with mode } false body
    | none =>
      match importSpecifier? selector with
      | some specifier => do
        recordImports specifier body
        pure []
      | none =>
        if trim selector = ":export" then do
          recordExports body
          pure []
        else if frame.inKeyframes then pure [.rule selector body location]
        else do
          let selectors ← scopeRule context frame selector body location
          let inPureRule := frame.inPureRule || selectors.all AnnotatedSelector.hasLocal
          let kept ← nodes context ⟨frame.mode, inPureRule, false⟩ true body
          pure [.rule (renderSelectors context.scopedName selectors) kept location]
  | .block name params body location =>
    if isValueRule name then do
      recordValue context params location
      pure []
    else do
      let params ← scopeParams context frame name params
      let inKeyframes := frame.inKeyframes || Keyframes.isKeyframes name
      let kept ← nodes context { frame with inKeyframes } false body
      pure [.block name params kept location]
  | .statement name params location =>
    if isValueRule name then do
      recordValue context params location
      pure []
    else do
      let params ← scopeParams context frame name params
      pure [.statement name params location]
  | .declaration content =>
    pure (if inRule && Composition.isComposing content then [] else [.declaration content])
  | .comment text location => pure [.comment text location]

def nodes (context : FileContext) (frame : Frame) (inRule : Bool) :
    List Node → Collecting (List Node)
  | [] => pure []
  | first :: rest => do
    let kept ← node context frame inRule first
    let others ← nodes context frame inRule rest
    pure (kept ++ others)
end

def sheet (context : FileContext) (nodes : Stylesheet) : Collecting Stylesheet := do
  let kept ← Collect.nodes context ⟨context.mode, false, false⟩ false nodes
  update fun state => state.settleLiterals (state.imports.map ImportReference.localName)
  pure kept

def run (context : FileContext) (nodes : Stylesheet) : Except Failure Stylesheet × Collection :=
  (sheet context nodes).run.run .empty

end Collect

end ScopedStyles
