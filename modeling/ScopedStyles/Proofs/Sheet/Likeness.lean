import Mathlib.Data.List.Forall2
import Mathlib.Data.Option.Basic
import ScopedStyles.Sheet.Prune

/-!
Sheets of the same shape. Two sheets are alike when they differ in selectors, parameters and values
only, node by node, and these are alike as well. Whether a rule is dropped depends on the shape
alone.
-/

namespace ScopedStyles

/-- What is alike in the texts of two sheets: selectors, the parameters of an at-rule with some
name, and the values of a property. -/
structure TextLikeness where
  selectors : String → String → Prop
  params : (name : String) → String → String → Prop
  values : (property : String) → String → String → Prop

namespace TextLikeness

def equality : TextLikeness := ⟨Eq, fun _ => Eq, fun _ => Eq⟩

def shape : TextLikeness := ⟨fun _ _ => True, fun _ _ _ => True, fun _ _ _ => True⟩

end TextLikeness

namespace Node

/-- Nodes of the same kinds, in the same order and at the same places, with texts that are alike. -/
inductive AlikeAll (texts : TextLikeness) : List Node → List Node → Prop where
  | nil : AlikeAll texts [] []
  | rule {selector other : String} {location : Location} {body otherBody rest otherRest : List Node}
      (head : texts.selectors selector other) (inside : AlikeAll texts body otherBody)
      (after : AlikeAll texts rest otherRest) :
      AlikeAll texts (.rule selector body location :: rest)
        (.rule other otherBody location :: otherRest)
  | block {name params other : String} {location : Location}
      {body otherBody rest otherRest : List Node} (head : texts.params name params other)
      (inside : AlikeAll texts body otherBody) (after : AlikeAll texts rest otherRest) :
      AlikeAll texts (.block name params body location :: rest)
        (.block name other otherBody location :: otherRest)
  | statement {name params other : String} {location : Location} {rest otherRest : List Node}
      (head : texts.params name params other) (after : AlikeAll texts rest otherRest) :
      AlikeAll texts (.statement name params location :: rest)
        (.statement name other location :: otherRest)
  | declaration {property : String} {value other : Option String} {location : Location}
      {rest otherRest : List Node} (values : Option.Rel (texts.values property) value other)
      (after : AlikeAll texts rest otherRest) :
      AlikeAll texts (.declaration ⟨property, value, location⟩ :: rest)
        (.declaration ⟨property, other, location⟩ :: otherRest)
  | comment {text : String} {location : Location} {rest otherRest : List Node}
      (after : AlikeAll texts rest otherRest) :
      AlikeAll texts (.comment text location :: rest) (.comment text location :: otherRest)

namespace AlikeAll

variable {texts weaker : TextLikeness} {nodes others rest otherRest : List Node}

theorem refl (selectors : ∀ text, texts.selectors text text)
    (params : ∀ name text, texts.params name text text)
    (values : ∀ property text, texts.values property text text) :
    (nodes : List Node) → AlikeAll texts nodes nodes
  | [] => .nil
  | .rule _ body _ :: rest =>
    .rule (selectors _) (refl selectors params values body) (refl selectors params values rest)
  | .block _ _ body _ :: rest =>
    .block (params _ _) (refl selectors params values body) (refl selectors params values rest)
  | .statement .. :: rest => .statement (params _ _) (refl selectors params values rest)
  | .declaration ⟨_, none, _⟩ :: rest => .declaration .none (refl selectors params values rest)
  | .declaration ⟨_, some _, _⟩ :: rest =>
    .declaration (.some (values _ _)) (refl selectors params values rest)
  | .comment .. :: rest => .comment (refl selectors params values rest)

theorem append (first : AlikeAll texts nodes others) (second : AlikeAll texts rest otherRest) :
    AlikeAll texts (nodes ++ rest) (others ++ otherRest) := by
  induction first with
  | nil => exact second
  | rule head inside _ _ induction => exact .rule head inside induction
  | block head inside _ _ induction => exact .block head inside induction
  | statement head _ induction => exact .statement head induction
  | declaration values _ induction => exact .declaration values induction
  | comment _ induction => exact .comment induction

theorem flatMap {items : List ι} {partners : List κ} {pairs : ι → κ → Prop}
    {sheet : ι → List Node} {other : κ → List Node} (paired : List.Forall₂ pairs items partners)
    (alike : ∀ item partner, pairs item partner → AlikeAll texts (sheet item) (other partner)) :
    AlikeAll texts (items.flatMap sheet) (partners.flatMap other) := by
  induction paired with
  | nil => exact .nil
  | cons head _ induction =>
    rw [List.flatMap_cons, List.flatMap_cons]
    exact (alike _ _ head).append induction

theorem mono (alike : AlikeAll texts nodes others)
    (selectors : ∀ text other, texts.selectors text other → weaker.selectors text other)
    (params : ∀ name text other, texts.params name text other → weaker.params name text other)
    (values : ∀ property text other,
      texts.values property text other → weaker.values property text other) :
    AlikeAll weaker nodes others := by
  induction alike with
  | nil => exact .nil
  | rule head _ _ inside after => exact .rule (selectors _ _ head) inside after
  | block head _ _ inside after => exact .block (params _ _ _ head) inside after
  | statement head _ after => exact .statement (params _ _ _ head) after
  | declaration same _ after =>
    refine .declaration ?_ after
    cases same with
    | some same => exact .some (values _ _ _ same)
    | none => exact .none
  | comment _ after => exact .comment after

theorem sameShape (alike : AlikeAll texts nodes others) : AlikeAll .shape nodes others :=
  alike.mono (fun _ _ _ => trivial) (fun _ _ _ _ => trivial) fun _ _ _ _ => trivial

theorem eq (alike : AlikeAll .equality nodes others) : others = nodes := by
  induction alike with
  | nil => rfl
  | rule head _ _ inside after => rw [← show _ = _ from head, inside, after]
  | block head _ _ inside after => rw [← show _ = _ from head, inside, after]
  | statement head _ after => rw [← show _ = _ from head, after]
  | declaration same _ after =>
    rw [after]
    cases same with
    | some same => rw [← show _ = _ from same]
    | none => rfl
  | comment _ after => rw [after]

theorem isEmpty_eq (alike : AlikeAll texts nodes others) : others.isEmpty = nodes.isEmpty := by
  cases alike <;> rfl

theorem pruneAll (alike : AlikeAll texts nodes others) :
    AlikeAll texts (Node.pruneAll nodes) (Node.pruneAll others) := by
  -- A body is left empty on both sides or on neither, so the same nodes stay.
  induction alike with
  | nil => exact .nil
  | @rule _ _ _ body otherBody _ _ head _ _ inside after =>
    have same := inside.isEmpty_eq
    rw [Node.pruneAll, Node.pruneAll, prune, prune]
    cases isEmpty : (Node.pruneAll body).isEmpty with
    | true => simpa [same, isEmpty] using after
    | false => simpa [same, isEmpty] using .rule head inside after
  | @block name _ _ _ body otherBody _ _ head whole _ inside after =>
    have same := inside.isEmpty_eq
    have sameWhole := whole.isEmpty_eq
    rw [Node.pruneAll, Node.pruneAll, prune, prune]
    cases stays : Keyframes.isKeyframes name || body.isEmpty with
    | true => simpa [sameWhole, stays] using .block head whole after
    | false =>
      cases isEmpty : (Node.pruneAll body).isEmpty with
      | true => simpa [same, sameWhole, stays, isEmpty] using after
      | false => simpa [same, sameWhole, stays, isEmpty] using .block head inside after
  | statement head _ after => exact .statement head after
  | declaration values _ after => exact .declaration values after
  | comment _ after => exact .comment after

end AlikeAll

end Node

end ScopedStyles
