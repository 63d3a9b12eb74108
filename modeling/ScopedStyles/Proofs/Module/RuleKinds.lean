import ScopedStyles.Module.Collect

/-!
The kinds of rules that the walk over a sheet tells apart. The mode, being in keyframes and the
selector decide the kind, and the walk is an equation by kinds. So is every function that follows
the walk, where it is defined: what is proved about rules goes by their kinds, and does not depend
on how they are told apart.
-/

namespace ScopedStyles

open Text

/-- The surroundings of the nodes in a rule. -/
def Frame.inRule (frame : Frame) (selectors : List AnnotatedSelector) : Frame :=
  ⟨frame.mode, frame.inPureRule || selectors.all AnnotatedSelector.hasLocal, false⟩

namespace Collect

inductive RuleKind where
  /-- A block of `:global` or `:local`, whose nodes take its place. -/
  | wrapper (mode : Mode)
  | imports (specifier : String)
  | exports
  /-- A step of keyframes, which stays as it is. -/
  | step
  /-- A rule whose selectors nest wrappers, which is a failure. -/
  | refused (nested : NestedWrapper)
  /-- A rule whose selectors are scoped. -/
  | ordinary (selectors : List AnnotatedSelector)
deriving DecidableEq, Repr

/-- The kind of a rule, from what is around it and its selector. -/
def ruleKind (mode : Mode) (inKeyframes : Bool) (selector : String) : RuleKind :=
  match Mode.ofBlockSelector? selector with
  | some inner => .wrapper inner
  | none =>
    match importSpecifier? selector with
    | some specifier => .imports specifier
    | none =>
      if trim selector = ":export" then .exports
      else if inKeyframes then .step
      else
        match annotateSelectors selector mode with
        | .error nested => .refused nested
        | .ok selectors => .ordinary selectors

/-- What has been found out about a rule once its kind is known. -/
inductive RuleKind.Of (mode : Mode) (inKeyframes : Bool) (selector : String) : RuleKind → Prop
  | wrapper {inner : Mode} (wraps : Mode.ofBlockSelector? selector = some inner) :
    Of mode inKeyframes selector (.wrapper inner)
  | imports {specifier : String} (plain : Mode.ofBlockSelector? selector = none)
    (isImport : importSpecifier? selector = some specifier) :
    Of mode inKeyframes selector (.imports specifier)
  | exports (plain : Mode.ofBlockSelector? selector = none)
    (noImport : importSpecifier? selector = none) (isExport : trim selector = ":export") :
    Of mode inKeyframes selector .exports
  | step (plain : Mode.ofBlockSelector? selector = none)
    (noImport : importSpecifier? selector = none) (noExport : trim selector ≠ ":export")
    (inside : inKeyframes = true) : Of mode inKeyframes selector .step
  | refused {nested : NestedWrapper} (plain : Mode.ofBlockSelector? selector = none)
    (noImport : importSpecifier? selector = none) (noExport : trim selector ≠ ":export")
    (outside : inKeyframes = false) (annotated : annotateSelectors selector mode = .error nested) :
    Of mode inKeyframes selector (.refused nested)
  | ordinary {selectors : List AnnotatedSelector} (plain : Mode.ofBlockSelector? selector = none)
    (noImport : importSpecifier? selector = none) (noExport : trim selector ≠ ":export")
    (outside : inKeyframes = false) (annotated : annotateSelectors selector mode = .ok selectors) :
    Of mode inKeyframes selector (.ordinary selectors)

section

variable {mode : Mode} {inKeyframes : Bool} {selector : String}

theorem of_ruleKind {kind : RuleKind} (isKind : ruleKind mode inKeyframes selector = kind) :
    RuleKind.Of mode inKeyframes selector kind := by
  subst isKind
  unfold ruleKind
  cases plain : Mode.ofBlockSelector? selector with
  | some inner => exact .wrapper plain
  | none =>
    cases isImport : importSpecifier? selector with
    | some specifier => exact .imports plain isImport
    | none =>
      by_cases isExport : trim selector = ":export"
      · simpa only [isExport, ↓reduceIte] using .exports plain isImport isExport
      simp only [isExport, ↓reduceIte]
      cases inKeyframes with
      | true => exact .step plain isImport isExport rfl
      | false =>
        rw [if_neg Bool.false_ne_true]
        cases annotated : annotateSelectors selector mode with
        | error nested => exact .refused plain isImport isExport rfl annotated
        | ok selectors => exact .ordinary plain isImport isExport rfl annotated

theorem inKeyframes_of_step (isStep : ruleKind mode inKeyframes selector = .step) :
    inKeyframes = true := by
  cases of_ruleKind isStep with
  | step _ _ _ inside => exact inside

theorem ruleKind_ne_step (outside : inKeyframes = false) :
    ruleKind mode inKeyframes selector ≠ .step :=
  fun isStep => Bool.false_ne_true (outside.symm.trans (inKeyframes_of_step isStep))

/-- Rules whose selectors are scoped stand outside keyframes, and are not written as `:export`. -/
theorem outside_of_ordinary {selectors : List AnnotatedSelector}
    (isOrdinary : ruleKind mode inKeyframes selector = .ordinary selectors) :
    inKeyframes = false ∧ trim selector ≠ ":export" ∧
      annotateSelectors selector mode = .ok selectors := by
  cases of_ruleKind isOrdinary with
  | ordinary _ _ noExport outside annotated => exact ⟨outside, noExport, annotated⟩

theorem annotated_of_ordinary {selectors : List AnnotatedSelector}
    (isOrdinary : ruleKind mode inKeyframes selector = .ordinary selectors) :
    annotateSelectors selector mode = .ok selectors :=
  (outside_of_ordinary isOrdinary).2.2

end

/-- Scope the head of a rule and what is in it. -/
def ordinaryRule (context : FileContext) (frame : Frame) (selector : String) (body : List Node)
    (location : Location) : Collecting (List Node) := do
  let selectors ← scopeRule context frame selector body location
  let kept ← nodes context (frame.inRule selectors) true body
  pure [.rule (renderSelectors context.scopedName selectors) kept location]

theorem node_rule (context : FileContext) (frame : Frame) (inRule : Bool) (selector : String)
    (body : List Node) (location : Location) :
    node context frame inRule (.rule selector body location) =
      match ruleKind frame.mode frame.inKeyframes selector with
      | .wrapper mode =>
        if frame.mode.isBlock then fail context location (.nestedWrapper (trim selector))
        else nodes context { frame with mode } false body
      | .imports specifier => recordImports specifier body >>= fun _ => pure []
      | .exports => recordExports body >>= fun _ => pure []
      | .step => pure [.rule selector body location]
      | .refused nested => fail context location (.nestedWrapper nested.selector)
      | .ordinary _ => ordinaryRule context frame selector body location := by
  -- Each kind comes with the tests that lead to it, and they decide every branch of the walk.
  unfold node
  generalize isKind : ruleKind frame.mode frame.inKeyframes selector = kind
  cases of_ruleKind isKind <;> simp [*, ordinaryRule, scopeRule] <;> rfl

end Collect

end ScopedStyles
