import Mathlib.Data.List.Basic
import ScopedStyles.Proofs.Module.Records
import ScopedStyles.Sheet.Parse

/-!
Which rules of a pure file are checked. Collecting scopes the selectors of some of its rules. Those
in the block of a bare `:global`, and those inside a rule that has a local name in each of its
selectors, are exempt. The first of the others, in the order of the sheet, with a selector that has
no local name is refused; so a file that is collected has no such rule.
-/

namespace ScopedStyles

open Text

structure NodePlace where
  mode : Mode
  /-- Around the node is the block of a bare `:global`. -/
  inGlobalBlock : Bool
  /-- The selectors of the rules around the node, those of the innermost first. -/
  around : List (List AnnotatedSelector)
  inKeyframes : Bool

namespace NodePlace

def outermost (mode : Mode) : NodePlace := ⟨mode, false, [], false⟩

/-- In the block of a bare `:global` or `:local`, which sets a mode. -/
def inBlock (place : NodePlace) (mode : Mode) : NodePlace :=
  { place with mode, inGlobalBlock := place.inGlobalBlock || mode = .globalBlock }

def inRule (place : NodePlace) (selectors : List AnnotatedSelector) : NodePlace :=
  { place with around := selectors :: place.around, inKeyframes := false }

def inAtRule (place : NodePlace) (name : String) : NodePlace :=
  { place with inKeyframes := place.inKeyframes || Keyframes.isKeyframes name }

/-- Whether rules are not checked here: in a block of `:global`, and in a rule all of whose
selectors have a local name. -/
def isExempt (place : NodePlace) : Bool :=
  place.inGlobalBlock || place.around.any (·.all AnnotatedSelector.hasLocal)

/-- The same but for rules in between: the innermost rule around has a local name in each of its
selectors, and between it and the place stand only at-rules and blocks of `:local`. -/
def isExemptDirectly (place : NodePlace) : Bool :=
  place.inGlobalBlock || place.around.head?.any (·.all AnnotatedSelector.hasLocal)

def frame (place : NodePlace) : Frame :=
  ⟨place.mode, place.around.any (·.all AnnotatedSelector.hasLocal), place.inKeyframes⟩

@[simp] theorem frame_mode (place : NodePlace) : place.frame.mode = place.mode := rfl

@[simp] theorem frame_inKeyframes (place : NodePlace) :
    place.frame.inKeyframes = place.inKeyframes := rfl

/-- The mode of a place tells whether it is in a block of `:global`. -/
def IsSound (place : NodePlace) : Prop :=
  place.inGlobalBlock = decide (place.mode = .globalBlock)

section

variable {place : NodePlace}

theorem IsSound.inBlock (sound : place.IsSound) (outside : ¬ place.mode.isBlock) (mode : Mode) :
    (place.inBlock mode).IsSound := by
  have outsideGlobal : place.inGlobalBlock = false := by
    rw [sound, decide_eq_false_iff_not]
    intro isGlobal
    rw [isGlobal] at outside
    exact outside rfl
  simp [NodePlace.inBlock, IsSound, outsideGlobal]

theorem frame_inRule (place : NodePlace) (selectors : List AnnotatedSelector) :
    (place.inRule selectors).frame = place.frame.inRule selectors := by
  simp [NodePlace.inRule, frame, Frame.inRule, Bool.or_comm]

theorem isChecked_frame {context : FileContext} (isPure : context.mode = .purely)
    (sound : place.IsSound) : Collect.isChecked context place.frame = !place.isExempt := by
  have outsideGlobal : decide (place.frame.mode ≠ .globalBlock) = !place.inGlobalBlock := by
    rw [frame_mode, decide_not, sound]
  rw [Collect.isChecked, isPure, outsideGlobal, isExempt, Bool.not_or]
  simp [frame]

end

end NodePlace

/-- A rule whose selectors are scoped, and its place. -/
structure ScopedRule where
  selector : String
  location : Location
  place : NodePlace

namespace ScopedRule

def selectors? (rule : ScopedRule) : Option (List AnnotatedSelector) :=
  (annotateSelectors rule.selector rule.place.mode).toOption

/-- Whether every selector of a rule has a local name. -/
def isPure (rule : ScopedRule) : Bool :=
  rule.selectors?.any (·.all AnnotatedSelector.hasLocal)

/-- Whether some selector of a rule has no local name. -/
def lacksLocal (rule : ScopedRule) : Bool :=
  rule.selectors?.any (·.any (!AnnotatedSelector.hasLocal ·))

def isRefused (rule : ScopedRule) : Bool :=
  !rule.place.isExempt && !rule.isPure

/-- The failure to collect a rule that is not pure. -/
def refusal (context : FileContext) (rule : ScopedRule) : Failure :=
  ⟨context.path, rule.location, .impure rule.selector⟩

end ScopedRule

namespace Node

mutual
/-- The rules of a node whose selectors are scoped, in the order of the sheet. -/
def scopedRules (place : NodePlace) : Node → List ScopedRule
  | .rule selector body location =>
    match Mode.ofBlockSelector? selector with
    | some mode => scopedRulesAll (place.inBlock mode) body
    | none =>
      if (Collect.importSpecifier? selector).isSome || trim selector = ":export" ||
        place.inKeyframes then []
      else
        ⟨selector, location, place⟩ ::
          match annotateSelectors selector place.mode with
          | .ok selectors => scopedRulesAll (place.inRule selectors) body
          | .error _ => []
  | .block name _ body _ =>
    if Collect.isValueRule name then [] else scopedRulesAll (place.inAtRule name) body
  | .statement .. | .declaration _ | .comment .. => []

def scopedRulesAll (place : NodePlace) : List Node → List ScopedRule
  | [] => []
  | first :: rest => scopedRules place first ++ scopedRulesAll place rest
end

theorem scopedRules_rule (place : NodePlace) (selector : String) (body : List Node)
    (location : Location) :
    scopedRules place (.rule selector body location) =
      match Collect.ruleKind place.mode place.inKeyframes selector with
      | .wrapper mode => scopedRulesAll (place.inBlock mode) body
      | .imports _ | .exports | .step => []
      | .refused _ => [⟨selector, location, place⟩]
      | .ordinary selectors =>
        ⟨selector, location, place⟩ :: scopedRulesAll (place.inRule selectors) body := by
  unfold scopedRules
  generalize isKind : Collect.ruleKind place.mode place.inKeyframes selector = kind
  cases Collect.of_ruleKind isKind <;> simp [*]

end Node

namespace Collect

/-! ## Checks -/

/-- The outcome of an action that has to refuse one rule or none. -/
inductive Verdict (context : FileContext) (refused : Option ScopedRule) : Except Failure α → Prop
  | passes (value : α) (nothing : refused = none) : Verdict context refused (.ok value)
  | refuses {rule : ScopedRule} (isRefused : refused = some rule) (lacks : rule.lacksLocal) :
    Verdict context refused (.error (rule.refusal context))
  /-- The action has failed for another reason before. -/
  | fails {failure : Failure} (other : failure.cause.kind ≠ .purity) :
    Verdict context refused (.error failure)

/-- An action ends well only if there is no rule to refuse, and refuses no other rule. -/
def Checks (context : FileContext) (refused : Option ScopedRule) (action : Collecting α) : Prop :=
  ∀ collection, Verdict context refused (outcome action collection).1

namespace Checks

variable {context : FileContext} {refused others : Option ScopedRule}

theorem pure (value : α) : Checks context none (Pure.pure value) :=
  fun _ => .passes value rfl

theorem fail {location : Location} {cause : Cause} (other : cause.kind ≠ .purity) :
    Checks context refused (Collect.fail context location cause : Collecting α) :=
  fun _ => .fails other

theorem update (change : ModuleState → ModuleState) : Checks context none (Collect.update change) :=
  fun _ => .passes () rfl

theorem get : Checks context none (MonadState.get : Collecting Collection) :=
  fun collection => .passes collection rfl

theorem bind {action : Collecting α} {next : α → Collecting β}
    (first : Checks context refused action)
    (rest : ∀ value collection after, outcome action collection = (.ok value, after) →
      Checks context others (next value)) :
    Checks context (refused.or others) (action >>= next) := by
  intro collection
  have verdict := first collection
  rw [outcome_bind]
  cases ending : outcome action collection with
  | mk result after =>
    rw [ending] at verdict
    cases verdict with
    | passes value nothing =>
      rw [nothing, Option.none_or]
      exact rest value collection after ending after
    | refuses isRefused lacks => exact .refuses (by rw [isRefused, Option.some_or]) lacks
    | fails other => exact .fails other

theorem before {action : Collecting α} {next : α → Collecting β}
    (first : Checks context none action) (rest : ∀ value, Checks context refused (next value)) :
    Checks context refused (action >>= next) := by
  have both := first.bind fun value _ _ _ => rest value
  rwa [Option.none_or] at both

theorem behind {action : Collecting α} {next : α → Collecting β}
    (first : Checks context refused action) (rest : ∀ value, Checks context none (next value)) :
    Checks context refused (action >>= next) := by
  have both := first.bind fun value _ _ _ => rest value
  rwa [Option.or_none] at both

theorem give {action : Collecting α} {value : α → β} (first : Checks context refused action) :
    Checks context refused (action >>= fun result => Pure.pure (value result)) :=
  first.behind fun result => pure (value result)

theorem forM {items : List ι} {action : ι → Collecting Unit}
    (each : ∀ item ∈ items, Checks context none (action item)) :
    Checks context none (items.forM action) := by
  induction items with
  | nil => exact pure ()
  | cons item rest induction =>
    change Checks context none (action item >>= fun _ => rest.forM action)
    exact (each item List.mem_cons_self).before fun _ =>
      induction fun other member => each other (List.mem_cons_of_mem _ member)

end Checks

/-! ## What refuses no rule -/

section

variable (context : FileContext)

theorem checks_recordValue (params : String) (location : Location) :
    Checks context none (recordValue context params location) := by
  unfold recordValue
  split
  · exact fun _ => .passes () rfl
  · exact .update _
  · rename_i source _
    cases source with
    | path specifier => exact .before (.pure specifier) fun _ => .update _
    | value name =>
      refine .before ?_ fun _ => .update _
      unfold valuePath
      refine .before .get fun collection => ?_
      split
      · split
        · exact .pure _
        · exact .fail nofun
      · exact .fail nofun

theorem checks_recordCompositions (selector : String) (selectors : List AnnotatedSelector)
    (body : List Node) :
    Checks context none (recordCompositions context selector selectors body) := by
  refine .forM fun content _ => ?_
  split
  · exact .fail nofun
  · exact .update _

theorem checks_scopeParams (frame : Frame) (name params : String) :
    Checks context none (scopeParams context frame name params) := by
  unfold scopeParams
  split
  · unfold scopeKeyframes
    dsimp only
    split
    · exact .give (.update _)
    · split
      · exact .give (.update _)
      · exact .pure _
  · exact .pure params

end

/-! ## The walk -/

section

variable {context : FileContext} {place : NodePlace}

theorem checks_scopeRule (isPure : context.mode = .purely) (sound : place.IsSound)
    (selector : String) (body : List Node) (location : Location) :
    Checks context ([ScopedRule.mk selector location place].find? ScopedRule.isRefused)
      (scopeRule context place.frame selector body location) := by
  unfold scopeRule
  rw [NodePlace.isChecked_frame isPure sound, NodePlace.frame_mode]
  cases annotated : annotateSelectors selector place.mode with
  | error nested => exact .fail nofun
  | ok selectors =>
    have named : ScopedRule.selectors? ⟨selector, location, place⟩ = some selectors := by
      rw [ScopedRule.selectors?, annotated]
      rfl
    have refusal : ScopedRule.isRefused ⟨selector, location, place⟩ =
        (!place.isExempt && !selectors.all AnnotatedSelector.hasLocal) := by
      rw [ScopedRule.isRefused, ScopedRule.isPure, named]
      rfl
    dsimp only
    rw [← refusal]
    by_cases isRefused : ScopedRule.isRefused ⟨selector, location, place⟩
    · rw [if_pos isRefused, List.find?_cons_of_pos isRefused]
      have lacks : ScopedRule.lacksLocal ⟨selector, location, place⟩ := by
        rw [refusal] at isRefused
        rw [ScopedRule.lacksLocal, named]
        simpa using (Bool.and_eq_true_iff.mp isRefused).2
      exact fun _ => .refuses rfl lacks
    · rw [if_neg isRefused, List.find?_cons_of_neg isRefused, List.find?_nil]
      exact .before (.update _) fun _ =>
        .give (checks_recordCompositions context selector selectors body)

theorem eq_of_scopeRule {frame : Frame} {selector : String} {body : List Node}
    {location : Location} {selectors own : List AnnotatedSelector} {collection after : Collection}
    (annotated : annotateSelectors selector frame.mode = .ok selectors)
    (ends : outcome (scopeRule context frame selector body location) collection =
      (.ok own, after)) : own = selectors := by
  have gathered := (gathers_scopeRule context annotated body location).comes collection
  rw [ends] at gathered
  exact gathered.1

mutual
theorem checks_node (isPure : context.mode = .purely) (place : NodePlace) (sound : place.IsSound)
    (inRule : Bool) : (item : Node) →
      Checks context ((item.scopedRules place).find? ScopedRule.isRefused)
        (node context place.frame inRule item)
  | .rule selector body location => by
    rw [node_rule, Node.scopedRules_rule, NodePlace.frame_mode, NodePlace.frame_inKeyframes]
    cases kind : ruleKind place.mode place.inKeyframes selector with
    | wrapper mode =>
      dsimp only
      by_cases inBlock : place.mode.isBlock
      · rw [if_pos inBlock]
        exact .fail nofun
      · rw [if_neg inBlock]
        exact checks_nodes isPure (place.inBlock mode) (sound.inBlock inBlock mode) false body
    | imports _ | exports => exact .give (.update _)
    | step => exact .pure _
    | refused _ => exact .fail nofun
    | ordinary selectors =>
      dsimp only
      rw [← List.singleton_append, List.find?_append]
      apply (checks_scopeRule isPure sound selector body location).bind
      intro own _ _ ends
      -- Whether the rules inside are exempt depends on the selectors of this one.
      have annotated : annotateSelectors selector place.frame.mode = .ok selectors :=
        annotated_of_ordinary kind
      obtain rfl : own = selectors := eq_of_scopeRule annotated ends
      have inside := checks_nodes isPure (place.inRule own) sound true body
      rw [NodePlace.frame_inRule] at inside
      exact .give inside
  | .block name params body location => by
    unfold node Node.scopedRules
    by_cases isValue : isValueRule name
    · rw [if_pos isValue, if_pos isValue]
      exact .give (checks_recordValue context params location)
    · rw [if_neg isValue, if_neg isValue]
      refine .before (checks_scopeParams context place.frame name params) fun _ => ?_
      exact .give (checks_nodes isPure (place.inAtRule name) sound false body)
  | .statement name params location => by
    unfold node
    split
    · exact .give (checks_recordValue context params location)
    · exact .give (checks_scopeParams context place.frame name params)
  | .declaration _ => .pure _
  | .comment .. => .pure _

theorem checks_nodes (isPure : context.mode = .purely) (place : NodePlace) (sound : place.IsSound)
    (inRule : Bool) : (items : List Node) →
      Checks context ((Node.scopedRulesAll place items).find? ScopedRule.isRefused)
        (nodes context place.frame inRule items)
  | [] => .pure []
  | first :: rest => by
    rw [Node.scopedRulesAll, List.find?_append]
    exact (checks_node isPure place sound inRule first).bind fun _ _ _ _ =>
      .give (checks_nodes isPure place sound inRule rest)
end

/-- The rules of a pure sheet whose selectors are scoped, in order. -/
def scopedRules (sheet : Stylesheet) : List ScopedRule :=
  Node.scopedRulesAll (.outermost .purely) sheet

theorem checks_sheet (isPure : context.mode = .purely) (sheet : Stylesheet) :
    Checks context ((scopedRules sheet).find? ScopedRule.isRefused)
      (Collect.sheet context sheet) := by
  have start : (NodePlace.outermost .purely).frame = ⟨context.mode, false, false⟩ := by
    rw [isPure]
    rfl
  have walks := checks_nodes isPure (.outermost .purely) rfl false sheet
  rw [start] at walks
  exact walks.behind fun _ => .give (.update _)

end

/-- In a pure file that is collected, every rule that is not exempt has a local name in each of its
selectors; and the rule that is refused is the first one that is not exempt and has a selector
without a local name. -/
theorem purity_is_checked_in_order {context : FileContext} (isPure : context.mode = .purely)
    (sheet : Stylesheet) :
    (∀ kept, (run context sheet).1 = .ok kept →
      ∀ rule ∈ scopedRules sheet, ¬ rule.place.isExempt → rule.isPure) ∧
    ∀ failure selector, (run context sheet).1 = .error failure →
      failure.cause = .impure selector →
        ∃ before rule after, scopedRules sheet = before ++ rule :: after ∧
          rule.selector = selector ∧ rule.location = failure.location ∧
          ¬ rule.place.isExempt ∧ rule.lacksLocal ∧
          ∀ earlier ∈ before, ¬ earlier.place.isExempt → earlier.isPure := by
  have verdict := checks_sheet isPure sheet .empty
  change Verdict context _ (run context sheet).1 at verdict
  have passes : ∀ {rule : ScopedRule}, ¬ rule.isRefused → ¬ rule.place.isExempt → rule.isPure := by
    intro rule notRefused checked
    simpa [ScopedRule.isRefused, checked] using notRefused
  refine ⟨fun kept collects rule member => ?_, fun failure selector fails impure => ?_⟩
  · rw [collects] at verdict
    cases verdict with
    | passes _ nothing => exact passes (List.find?_eq_none.mp nothing rule member)
  · rw [fails] at verdict
    cases verdict with
    | fails other =>
      rw [impure] at other
      exact absurd rfl other
    | @refuses rule first lacks =>
      obtain ⟨isRefused, before, after, split, earlier⟩ := List.find?_eq_some_iff_append.mp first
      cases impure
      refine ⟨before, rule, after, split, rfl, rfl, ?_, lacks, fun other member => passes ?_⟩
      · simpa using (Bool.and_eq_true_iff.mp isRefused).1
      · simpa using earlier other member

theorem exists_of_isSome {result : Except Failure Stylesheet} (succeeds : result.toOption.isSome) :
    ∃ kept, result = .ok kept := by
  cases result with
  | ok kept => exact ⟨kept, rfl⟩
  | error failure => cases succeeds

/-- A file in pure mode, with names that show that they are scoped. -/
def pureFile : FileContext where
  path := .parse "/x.css"
  namePath := "x.css"
  source := ""
  mode := .purely
  generator := ⟨.custom fun name _ _ => "x_" ++ name, ""⟩
  exportGlobals := false

/-- Rules that are exempt for each reason, a rule with local names, and rules that are not
scoped. -/
def exempting : Stylesheet :=
  parse (":global\x7bp,.q\x7bi\x7b\x7d\x7d\x7d@media m\x7b.a,#b i\x7b:local\x7bi\x7b@media m\x7b" ++
    "u\x7b\x7d\x7d\x7d\x7d\x7d\x7d@keyframes k\x7bto\x7b\x7d\x7d:export\x7bp:q\x7d")

/-- An exempt rule, and two rules that have to be refused. -/
def refusing : Stylesheet :=
  parse ".a\x7bp\x7b\x7d\x7d:local\x7b.b i,q\x7bu\x7b\x7d\x7d\x7di\x7b\x7d"

theorem first_impure_rule_is_refused :
    pureFile.mode = .purely ∧
      (∃ kept, (run pureFile exempting).1 = .ok kept ∧
        ((scopedRules exempting).map fun rule => (rule.selector, rule.place.isExempt)) =
          [("p,.q", true), ("i", true), (".a,#b i", false), ("i", true), ("u", true)] ∧
        ∀ rule ∈ scopedRules exempting, ¬ rule.place.isExempt → rule.isPure) ∧
      ∃ failure, (run pureFile refusing).1 = .error failure ∧
        failure.cause = .impure ".b i,q" ∧ failure.location = ⟨14, 1, 15⟩ ∧
        ∃ before rule after, scopedRules refusing = before ++ rule :: after ∧
          rule.selector = ".b i,q" ∧ rule.location = failure.location ∧
          ¬ rule.place.isExempt ∧ rule.lacksLocal ∧
          ∀ earlier ∈ before, ¬ earlier.place.isExempt → earlier.isPure := by
  have succeeds : (run pureFile exempting).1.toOption.isSome := by decide +kernel
  have fails : (run pureFile refusing).1.map (fun _ => ()) =
      .error ⟨pureFile.path, ⟨14, 1, 15⟩, .impure ".b i,q"⟩ := by decide +kernel
  refine ⟨rfl, ?_, ?_⟩
  · obtain ⟨kept, collects⟩ := exists_of_isSome succeeds
    exact ⟨kept, collects, by decide +kernel,
      (purity_is_checked_in_order rfl exempting).1 kept collects⟩
  · cases refuses : (run pureFile refusing).1 with
    | ok kept =>
      rw [refuses] at fails
      cases fails
    | error failure =>
      rw [refuses] at fails
      cases fails
      exact ⟨_, rfl, rfl, rfl, (purity_is_checked_in_order rfl refusing).2 _ _ refuses rfl⟩

/-- A rule is exempt in a rule that is not pure itself, if that one is exempt. -/
theorem rules_in_exempt_rules_are_exempt :
    ¬ ∀ (context : FileContext) (sheet kept : Stylesheet), context.mode = .purely →
      (run context sheet).1 = .ok kept →
        ∀ rule ∈ scopedRules sheet, ¬ rule.place.isExemptDirectly → rule.isPure := by
  intro claim
  let sheet := parse ".a\x7bspan\x7bb\x7b\x7d\x7d\x7d"
  have succeeds : (run pureFile sheet).1.toOption.isSome := by decide +kernel
  have unchecked : ¬ ∀ rule ∈ scopedRules sheet,
      ¬ rule.place.isExemptDirectly → rule.isPure := by decide +kernel
  obtain ⟨kept, collects⟩ := exists_of_isSome succeeds
  exact unchecked (claim pureFile sheet kept rfl collects)

end Collect

end ScopedStyles
