import ScopedStyles.Module.Collect
import ScopedStyles.Sheet.Prune

/-!
The contents of a sheet outside its keyframes: its declarations and the names of its at-rules, in
document order. Substitution changes the values of declarations only, and pruning drops at-rules at
most.
-/

namespace ScopedStyles

namespace Node

inductive Content where
  | atRule (name : String)
  | declaration (content : Declaration)
deriving DecidableEq, Repr

namespace Content

def declaration? : Content → Option Declaration
  | .declaration content => some content
  | .atRule _ => none

def atRule? : Content → Option String
  | .atRule name => some name
  | .declaration _ => none

end Content

mutual
def contents : Node → List Content
  | .rule _ body _ => contentsAll body
  | .block name _ body _ =>
    .atRule name :: if Keyframes.isKeyframes name then [] else contentsAll body
  | .statement name _ _ => [.atRule name]
  | .declaration content => [.declaration content]
  | .comment .. => []

def contentsAll : List Node → List Content
  | [] => []
  | first :: rest => first.contents ++ contentsAll rest
end

theorem contentsAll_append (first second : List Node) :
    contentsAll (first ++ second) = contentsAll first ++ contentsAll second := by
  induction first with
  | nil => rfl
  | cons node rest induction => simp [contentsAll, induction]

/-- The declarations that compose, in document order. -/
def composing (nodes : List Node) : List Declaration :=
  ((contentsAll nodes).filterMap Content.declaration?).filter Composition.isComposing

theorem composing_append (first second : List Node) :
    composing (first ++ second) = composing first ++ composing second := by
  simp [composing, contentsAll_append]

section

variable {selector name params text : String} {body : List Node} {location : Location}
  {content : Declaration}

@[simp] theorem composing_nil : composing [] = [] := rfl

@[simp] theorem composing_rule : composing [.rule selector body location] = composing body := by
  simp [composing, contentsAll, contents]

@[simp] theorem composing_block :
    composing [.block name params body location] =
      if Keyframes.isKeyframes name then [] else composing body := by
  simp only [composing, contentsAll, contents, List.append_nil]
  split <;> rfl

@[simp] theorem composing_statement : composing [.statement name params location] = [] := rfl

@[simp] theorem composing_declaration :
    composing [.declaration content] =
      if Composition.isComposing content then [content] else [] := by
  simp only [composing, contentsAll, contents, List.append_nil, List.filterMap_cons,
    Content.declaration?, List.filterMap_nil, List.filter_cons, List.filter_nil]

@[simp] theorem composing_comment : composing [.comment text location] = [] := rfl

end

/-- The names of the at-rules that define or import values, in document order. -/
def valueRules (nodes : List Node) : List String :=
  ((contentsAll nodes).filterMap Content.atRule?).filter Collect.isValueRule

theorem valueRules_append (first second : List Node) :
    valueRules (first ++ second) = valueRules first ++ valueRules second := by
  simp [valueRules, contentsAll_append]

/-! ## Substitution -/

end Node

namespace Substitution

open Node

/-- A declaration with what is settled in a state. -/
def declaration (state : ModuleState) (content : Declaration) : Declaration :=
  { content with value := content.value.map (value state content) }

def content (state : ModuleState) : Content → Content
  | .atRule name => .atRule name
  | .declaration content => .declaration (declaration state content)

mutual
theorem contents_node (state : ModuleState) :
    (item : Node) → (node state item).contents = item.contents.map (content state)
  | .rule _ body _ => contentsAll_nodes state body
  | .block name _ body _ => by
    simp only [node, contents, List.map_cons]
    split
    · rfl
    · rw [contentsAll_nodes state body]
      rfl
  | .statement .. | .declaration _ | .comment .. => rfl

theorem contentsAll_nodes (state : ModuleState) :
    (items : List Node) →
      contentsAll (nodes state items) = (contentsAll items).map (content state)
  | [] => rfl
  | first :: rest => by
    simp only [nodes, contentsAll, List.map_append, contents_node state first,
      contentsAll_nodes state rest]
end

theorem composing_nodes (state : ModuleState) (items : List Node) :
    composing (nodes state items) = (composing items).map (declaration state) := by
  have same : Content.declaration? ∘ content state =
      fun item => (Content.declaration? item).map (declaration state) := by
    funext item
    cases item <;> rfl
  rw [composing, contentsAll_nodes, List.filterMap_map, same, composing]
  generalize contentsAll items = all
  induction all with
  | nil => rfl
  | cons first rest induction =>
    cases first with
    | atRule => exact induction
    | declaration content =>
      have kind : Composition.isComposing (declaration state content) =
        Composition.isComposing content := rfl
      simp only [List.filterMap_cons, Content.declaration?, Option.map_some, List.filter_cons, kind]
      split
      · exact congrArg _ induction
      · exact induction

theorem valueRules_nodes (state : ModuleState) (items : List Node) :
    valueRules (nodes state items) = valueRules items := by
  have same : Content.atRule? ∘ content state = Content.atRule? := by
    funext item
    cases item <;> rfl
  rw [valueRules, contentsAll_nodes, List.filterMap_map, same, valueRules]

end Substitution

/-! ## Pruning -/

namespace Node

mutual
theorem declarations_prune :
    (node : Node) → (((node.prune.map contents).getD []).filterMap Content.declaration?) =
      node.contents.filterMap Content.declaration?
  | .rule selector body location => by
    have inside := declarations_pruneAll body
    unfold prune contents
    dsimp only
    split
    · rename_i nothing
      rw [← inside, List.isEmpty_iff.mp nothing]
      rfl
    · exact inside
  | .block name params body location => by
    have inside := declarations_pruneAll body
    unfold prune
    split
    · rfl
    rename_i pruned
    have noKeyframes : Keyframes.isKeyframes name = false := by
      simpa using (not_or.mp (mt Bool.or_eq_true_iff.mpr pruned)).1
    dsimp only
    split
    · rename_i nothing
      rw [contents, noKeyframes, List.filterMap_cons]
      simp only [Content.declaration?, Bool.false_eq_true, ↓reduceIte]
      rw [← inside, List.isEmpty_iff.mp nothing]
      rfl
    · simpa [contents, noKeyframes, Content.declaration?, List.filterMap_cons] using inside
  | .statement .. | .declaration _ | .comment .. => rfl

theorem declarations_pruneAll :
    (nodes : List Node) → (contentsAll (pruneAll nodes)).filterMap Content.declaration? =
      (contentsAll nodes).filterMap Content.declaration?
  | [] => rfl
  | first :: rest => by
    have pruned := declarations_prune first
    have behind := declarations_pruneAll rest
    unfold pruneAll
    rw [contentsAll, List.filterMap_append, ← pruned, ← behind]
    cases first.prune with
    | none => rfl
    | some kept =>
      rw [contentsAll, List.filterMap_append]
      rfl
end

theorem composing_pruneAll (nodes : List Node) : composing (pruneAll nodes) = composing nodes := by
  rw [composing, declarations_pruneAll, composing]

mutual
theorem contents_prune :
    (node : Node) → ((node.prune.map contents).getD []).Sublist node.contents
  | .rule selector body location => by
    have inside := contentsAll_pruneAll body
    unfold prune contents
    dsimp only
    split
    · exact List.nil_sublist _
    · exact inside
  | .block name params body location => by
    have inside := contentsAll_pruneAll body
    unfold prune
    split
    · exact .refl _
    dsimp only
    split
    · exact List.nil_sublist _
    · dsimp only [Option.map_some, Option.getD_some, contents]
      split
      · exact .refl _
      · exact inside.cons_cons _
  | .statement .. | .declaration _ | .comment .. => by
    unfold prune
    dsimp only [Option.map_some, Option.getD_some]
    exact .refl _

theorem contentsAll_pruneAll :
    (nodes : List Node) → (contentsAll (pruneAll nodes)).Sublist (contentsAll nodes)
  | [] => .refl _
  | first :: rest => by
    have pruned := contents_prune first
    have behind := contentsAll_pruneAll rest
    unfold pruneAll
    cases kept : first.prune with
    | none => exact behind.trans (List.sublist_append_right _ _)
    | some node =>
      rw [kept] at pruned
      exact pruned.append behind
end

theorem valueRules_pruneAll {nodes : List Node} (clear : valueRules nodes = []) :
    valueRules (pruneAll nodes) = [] := by
  have less : (valueRules (pruneAll nodes)).Sublist (valueRules nodes) :=
    ((contentsAll_pruneAll nodes).filterMap _).filter _
  rw [clear] at less
  exact List.sublist_nil.mp less

end Node

end ScopedStyles
