import ScopedStyles.Module.Settlement
import ScopedStyles.Sheet.Printer
import ScopedStyles.Sheet.Prune

/-!
The heads of a sheet: the selectors of its rules and the headers of its keyframes. Rules inside
keyframes are its steps, whose selectors name nothing. Heads are printed in order, substitution
leaves them alone, and pruning only drops some of them.
-/

namespace ScopedStyles

namespace Node

inductive Head where
  | rule (selector : String)
  | keyframes (name params : String)
deriving DecidableEq, Repr

/-- The head of an at-rule, if it introduces keyframes. -/
def paramsHeads (name params : String) : List Head :=
  if Keyframes.isKeyframes name then [.keyframes name params] else []

mutual
def heads (inKeyframes : Bool) : Node → List Head
  | .rule selector body _ =>
    if inKeyframes then [] else .rule selector :: headsAll false body
  | .block name params body _ =>
    paramsHeads name params ++ headsAll (inKeyframes || Keyframes.isKeyframes name) body
  | .statement name params _ => paramsHeads name params
  | .declaration _ | .comment .. => []

def headsAll (inKeyframes : Bool) : List Node → List Head
  | [] => []
  | first :: rest => heads inKeyframes first ++ headsAll inKeyframes rest
end

theorem headsAll_append (inKeyframes : Bool) (first second : List Node) :
    headsAll inKeyframes (first ++ second) =
      headsAll inKeyframes first ++ headsAll inKeyframes second := by
  induction first with
  | nil => rfl
  | cons node rest induction => simp only [List.cons_append, headsAll, induction, List.append_assoc]

/-! ## Substitution -/

theorem paramsHeads_params (state : ModuleState) (name text : String) :
    paramsHeads name (Substitution.params state name text) = paramsHeads name text := by
  unfold paramsHeads Substitution.params
  split <;> rfl

mutual
theorem heads_substitution (state : ModuleState) (inKeyframes : Bool) :
    (node : Node) → heads inKeyframes (Substitution.node state node) = heads inKeyframes node
  | .rule selector body _ => by
    simp only [Substitution.node, heads, headsAll_substitution state false body]
  | .block name text body _ => by
    simp only [Substitution.node, heads, paramsHeads_params, headsAll_substitution state _ body]
  | .statement name text _ => paramsHeads_params state name text
  | .declaration _ | .comment .. => rfl

theorem headsAll_substitution (state : ModuleState) (inKeyframes : Bool) :
    (nodes : List Node) →
      headsAll inKeyframes (Substitution.nodes state nodes) = headsAll inKeyframes nodes
  | [] => rfl
  | first :: rest => by
    simp only [Substitution.nodes, headsAll, heads_substitution state inKeyframes first,
      headsAll_substitution state inKeyframes rest]
end

/-! ## Pruning -/

mutual
theorem heads_prune (inKeyframes : Bool) :
    (node : Node) → ((node.prune.map (heads inKeyframes)).getD []).Sublist (heads inKeyframes node)
  | .rule selector body location => by
    unfold prune heads
    dsimp only
    split
    · exact List.nil_sublist _
    · dsimp only [Option.map_some, Option.getD_some, heads]
      split
      · exact .refl _
      · exact (headsAll_pruneAll false body).cons_cons _
  | .block name params body location => by
    unfold prune heads
    split
    · exact .refl _
    dsimp only
    split
    · exact List.nil_sublist _
    · exact (List.Sublist.refl _).append (headsAll_pruneAll _ body)
  | .statement .. | .declaration _ | .comment .. => by
    unfold prune
    dsimp only [Option.map_some, Option.getD_some]
    exact .refl _

theorem headsAll_pruneAll (inKeyframes : Bool) :
    (nodes : List Node) →
      (headsAll inKeyframes (pruneAll nodes)).Sublist (headsAll inKeyframes nodes)
  | [] => .refl _
  | first :: rest => by
    have pruned := heads_prune inKeyframes first
    unfold pruneAll
    cases kept : first.prune with
    | none => exact (headsAll_pruneAll inKeyframes rest).trans (List.sublist_append_right _ _)
    | some node =>
      rw [kept] at pruned
      exact List.Sublist.append pruned (headsAll_pruneAll inKeyframes rest)
end

def Head.isKeyframes : Head → Bool
  | .keyframes .. => true
  | .rule _ => false

mutual
theorem keyframes_prune (inKeyframes : Bool) :
    (node : Node) → ((node.prune.map (heads inKeyframes)).getD []).filter Head.isKeyframes =
      (heads inKeyframes node).filter Head.isKeyframes
  | .rule selector body location => by
    have inside := keyframes_pruneAll false body
    unfold prune heads
    dsimp only
    split
    · rename_i nothing
      rw [List.isEmpty_iff.mp nothing] at inside
      cases inKeyframes with
      | true => rfl
      | false => exact inside
    · cases inKeyframes with
      | true => rfl
      | false => exact inside
  | .block name params body location => by
    have inside := keyframes_pruneAll (inKeyframes || Keyframes.isKeyframes name) body
    unfold prune
    split
    · rfl
    rename_i pruned
    have plain : Keyframes.isKeyframes name = false := by
      simpa using (not_or.mp (mt Bool.or_eq_true_iff.mpr pruned)).1
    have noHead : paramsHeads name params = [] := by simp [paramsHeads, plain]
    dsimp only
    rw [heads, noHead, List.nil_append, ← inside]
    split
    · rename_i nothing
      rw [List.isEmpty_iff.mp nothing]
      rfl
    · rw [Option.map_some, Option.getD_some, heads, noHead, List.nil_append]
  | .statement .. | .declaration _ | .comment .. => rfl

theorem keyframes_pruneAll (inKeyframes : Bool) :
    (nodes : List Node) →
      (headsAll inKeyframes (pruneAll nodes)).filter Head.isKeyframes =
        (headsAll inKeyframes nodes).filter Head.isKeyframes
  | [] => rfl
  | first :: rest => by
    have pruned := keyframes_prune inKeyframes first
    have behind := keyframes_pruneAll inKeyframes rest
    unfold pruneAll
    rw [headsAll, List.filter_append, ← pruned, ← behind]
    cases first.prune with
    | none => rfl
    | some kept => exact List.filter_append _ _
end

end Node

/-! ## Printing -/

/-- Texts stand in a text, one behind the other. -/
inductive Appear : List (List Char) → List Char → Prop
  | none (text : List Char) : Appear [] text
  | next {text rest : List Char} {others : List (List Char)} (before : List Char)
      (appear : Appear others rest) : Appear (text :: others) (before ++ text ++ rest)

namespace Appear

variable {texts others : List (List Char)} {text other : List Char}

theorem single (text : List Char) : Appear [text] text := by
  have alone : Appear [text] ([] ++ text ++ []) := .next [] (.none [])
  simpa using alone

theorem behind (before : List Char) (appear : Appear texts text) :
    Appear texts (before ++ text) := by
  cases appear with
  | none => exact .none _
  | next gap appear =>
    rw [← List.append_assoc, ← List.append_assoc]
    exact .next (before ++ gap) appear

theorem append (first : Appear texts text) (second : Appear others other) :
    Appear (texts ++ others) (text ++ other) := by
  induction first with
  | none text => exact second.behind text
  | next before _ induction =>
    rw [List.append_assoc]
    exact .next before induction

theorem before (appear : Appear texts text) (after : List Char) : Appear texts (text ++ after) := by
  rw [← List.append_nil texts]
  exact appear.append (.none after)

end Appear

namespace Node

def Head.text : Head → List Char
  | .rule selector => selector.toList ++ ['\x7b']
  | .keyframes name params => '@' :: name.toList ++ printParams params

theorem appear_paramsHeads (name params : String) :
    Appear ((paramsHeads name params).map Head.text)
      ('@' :: name.toList ++ printParams params) := by
  unfold paramsHeads
  split
  · exact .single _
  · exact .none _

mutual
theorem appear_heads (inKeyframes : Bool) :
    (node : Node) → Appear ((heads inKeyframes node).map Head.text) node.print
  | .rule selector body _ => by
    unfold heads print
    split
    · exact .none _
    · have inside := (appear_headsAll false body).before ['\x7d']
      have printed := (Appear.single (selector.toList ++ ['\x7b'])).append inside
      simpa [Head.text] using printed
  | .block name params body _ => by
    unfold heads print
    have inside := (appear_headsAll (inKeyframes || Keyframes.isKeyframes name) body).before
      ['\x7d']
    have printed := (appear_paramsHeads name params).append (inside.behind ['\x7b'])
    simpa using printed
  | .statement name params _ => (appear_paramsHeads name params).before [';']
  | .declaration _ | .comment .. => .none _

theorem appear_headsAll (inKeyframes : Bool) :
    (nodes : List Node) → Appear ((headsAll inKeyframes nodes).map Head.text) (printAll nodes)
  | [] => .none []
  | first :: rest => by
    have printed := (appear_heads inKeyframes first).before
      (if first.isDeclaration && !rest.isEmpty then [';'] else [])
    rw [headsAll, List.map_append]
    exact printed.append (appear_headsAll inKeyframes rest)
end

end Node

end ScopedStyles
