import Mathlib.Data.List.Forall2

/-!
Two computations side by side. Each has a state and may end early with a reason. The second one
follows the first: where the first gives a value, the second gives one that matches it; where the
first ends early, so does the second, for the same reason. Some reasons excuse the second from
following. The rules take both computations apart in step.
-/

namespace ScopedStyles

theorem run_bind {ε σ α β : Type} (action : ExceptT ε (StateM σ) α)
    (next : α → ExceptT ε (StateM σ) β) (state : σ) :
    ((action >>= next).run.run state).run =
      match (action.run.run state).run with
      | (.ok value, after) => ((next value).run.run after).run
      | (.error reason, after) => (Except.error reason, after) := by
  change (StateT.bind action.run (ExceptT.bindCont next) state : Id _).run = _
  change ((ExceptT.bindCont next (action.run.run state).run.1).run
    (action.run.run state).run.2).run = _
  generalize (action.run.run state).run = ending
  rcases ending with ⟨result, after⟩
  cases result <;> rfl

/-- How the states of two computations match while they go on, and once they have ended early. -/
structure Pairing (ε σ : Type) where
  alike : σ → σ → Prop
  ended : σ → σ → Prop
  /-- Reasons that bind the second computation to nothing. -/
  excused : ε → Prop
  ended_of_alike : ∀ {state other}, alike state other → ended state other

namespace Pairing

variable {ε σ α β γ δ ι : Type} (pairing : Pairing ε σ)

inductive Ends (values : α → β → Prop) : Except ε α × σ → Except ε β × σ → Prop where
  | value {value : α} {other : β} {state otherState : σ} (match_ : values value other)
      (alike : pairing.alike state otherState) :
      Ends values (.ok value, state) (.ok other, otherState)
  | reason {reason : ε} {state otherState : σ} (ended : pairing.ended state otherState) :
      Ends values (.error reason, state) (.error reason, otherState)
  | excused {reason : ε} {state : σ} {ending : Except ε β × σ} (excuse : pairing.excused reason) :
      Ends values (.error reason, state) ending

/-- From two states, the second computation follows the first. -/
def Follows (values : α → β → Prop) (state other : σ) (action : ExceptT ε (StateM σ) α)
    (partner : ExceptT ε (StateM σ) β) : Prop :=
  pairing.Ends values (action.run.run state).run (partner.run.run other).run

namespace Follows

variable {pairing} {values : α → β → Prop} {state other : σ}

theorem pure {value : α} {otherValue : β} (alike : pairing.alike state other)
    (holds : values value otherValue) :
    pairing.Follows values state other (Pure.pure value) (Pure.pure otherValue) :=
  .value holds alike

theorem throw {reason : ε} (alike : pairing.alike state other) :
    pairing.Follows values state other (MonadExcept.throw reason : ExceptT ε (StateM σ) α)
      (MonadExcept.throw reason : ExceptT ε (StateM σ) β) :=
  .reason (pairing.ended_of_alike alike)

theorem bind {action : ExceptT ε (StateM σ) α} {partner : ExceptT ε (StateM σ) β}
    {next : α → ExceptT ε (StateM σ) γ} {further : β → ExceptT ε (StateM σ) δ}
    {results : γ → δ → Prop} (first : pairing.Follows values state other action partner)
    (rest : ∀ value otherValue after otherAfter, values value otherValue →
      pairing.alike after otherAfter →
      pairing.Follows results after otherAfter (next value) (further otherValue)) :
    pairing.Follows results state other (action >>= next) (partner >>= further) := by
  unfold Follows at first ⊢
  rw [run_bind, run_bind]
  generalize (action.run.run state).run = ending at first
  generalize (partner.run.run other).run = otherEnding at first
  cases first with
  | value holds alike => exact rest _ _ _ _ holds alike
  | reason ended => exact .reason ended
  | excused excuse => exact .excused excuse

theorem get {next : σ → ExceptT ε (StateM σ) γ} {further : σ → ExceptT ε (StateM σ) δ}
    {results : γ → δ → Prop}
    (rest : pairing.Follows results state other (next state) (further other)) :
    pairing.Follows results state other (MonadState.get >>= next) (MonadState.get >>= further) := by
  unfold Follows at rest ⊢
  rw [run_bind, run_bind]
  exact rest

theorem forM {items : List ι} {action partner : ι → ExceptT ε (StateM σ) Unit}
    (alike : pairing.alike state other)
    (step : ∀ item ∈ items, ∀ current otherCurrent, pairing.alike current otherCurrent →
      pairing.Follows Eq current otherCurrent (action item) (partner item)) :
    pairing.Follows Eq state other (items.forM action) (items.forM partner) := by
  induction items generalizing state other with
  | nil => exact pure alike rfl
  | cons item rest induction =>
    apply bind (step item List.mem_cons_self state other alike)
    intro _ _ after otherAfter _ alikeAfter
    exact induction alikeAfter fun later member => step later (List.mem_cons_of_mem _ member)

theorem mapM {items : List ι} {action : ι → ExceptT ε (StateM σ) α}
    {partner : ι → ExceptT ε (StateM σ) β} (alike : pairing.alike state other)
    (step : ∀ item ∈ items, ∀ current otherCurrent, pairing.alike current otherCurrent →
      pairing.Follows values current otherCurrent (action item) (partner item)) :
    pairing.Follows (List.Forall₂ values) state other (items.mapM action)
      (items.mapM partner) := by
  induction items generalizing state other with
  | nil => exact pure alike .nil
  | cons item rest induction =>
    rw [List.mapM_cons, List.mapM_cons]
    apply bind (step item List.mem_cons_self state other alike)
    intro value otherValue after otherAfter holds alikeAfter
    apply bind (induction alikeAfter fun later member =>
      step later (List.mem_cons_of_mem _ member))
    intro rest otherRest last otherLast all alikeLast
    exact pure alikeLast (.cons holds all)

end Follows

end Pairing

end ScopedStyles
