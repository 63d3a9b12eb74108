import ScopedStyles.Proofs.Module.Introductions
import ScopedStyles.Proofs.Module.Matching
import ScopedStyles.Proofs.Sheet.Likeness

/-!
States that differ in global names. A file is compiled twice, and only the second time its global
names are exported. The second table then has entries that the first one does not have; in files
that take something from elsewhere, some entries and some symbols may differ as well. Everything
that can happen to a state keeps what it was known by.
-/

namespace ScopedStyles

/-- What may differ when a file is compiled twice, the second time with its global names
exported. -/
structure Widening where
  /-- Whether a global name stands in the second table only. -/
  passes : String → Prop
  /-- Whether the entry of a name may differ. -/
  strays : String → Prop
  /-- Whether the symbol with this name may stand for another text. -/
  drifts : String → Prop

variable {widening : Widening} {name : String}

/-! ## Entries -/

/-- Entries of one kind, which are the same unless the name is among those that may differ. -/
structure TokenEntry.Widened (widening : Widening) (name : String) (entry other : TokenEntry) :
    Prop where
  kind : other.kind = entry.kind
  same : ¬ widening.strays name → other = entry

/-- The entry of a global name that is exported the second time only. -/
structure TokenEntry.Added (widening : Widening) (name : String) (entry : TokenEntry) : Prop where
  plain : entry = .plain .globalName name
  passes : widening.passes name

namespace TokenEntry.Widened

variable {entry other : TokenEntry}

theorem refl (entry : TokenEntry) : entry.Widened widening name entry := ⟨rfl, fun _ => rfl⟩

theorem isLiteral_eq (widened : entry.Widened widening name other) :
    other.isLiteral = entry.isLiteral := by
  rw [isLiteral, widened.kind, isLiteral]

theorem rename (widened : entry.Widened widening name other) (generated : String) :
    (entry.rename generated).Widened widening name (other.rename generated) :=
  ⟨rfl, fun steady => by rw [widened.same steady]⟩

theorem add (widened : entry.Widened widening name other) {names otherNames : List String}
    {isExternal otherExternal : Bool}
    (same : ¬ widening.strays name → otherNames = names ∧ otherExternal = isExternal) :
    (entry.add names isExternal).Widened widening name (other.add otherNames otherExternal) where
  kind := widened.kind
  same steady := by rw [widened.same steady, (same steady).1, (same steady).2]

theorem plain_literal {text otherText : String} (same : otherText = text ∨ widening.strays name) :
    Widened widening name (.plain .literal text) (.plain .literal otherText) :=
  ⟨rfl, fun steady => by rw [same.resolve_right steady]⟩

end TokenEntry.Widened

/-! ## Tables -/

/-- The second table has what the first one has, and global names besides. -/
def TokenTable.Widened (widening : Widening) (table other : TokenTable) : Prop :=
  ∀ name, Beside (TokenEntry.Widened widening name) (TokenEntry.Added widening name)
    (table.get? name) (other.get? name)

namespace TokenTable.Widened

variable {table other : TokenTable}

theorem empty : TokenTable.empty.Widened widening .empty := fun _ => .neither

/-- Names that stay are as they were, and one name is as it is shown to be. -/
theorem put (widened : table.Widened widening other) {entry otherEntry : TokenEntry}
    (same : entry.Widened widening name otherEntry) :
    (table.put name entry).Widened widening (other.put name otherEntry) := by
  intro asked
  rw [get?_put, get?_put]
  split
  · rename_i equal
    subst equal
    exact .both same
  · exact widened asked

theorem declareLocal (widened : table.Widened widening other) (name generated : String) :
    (table.declareLocal name generated).Widened widening (other.declareLocal name generated) := by
  intro asked
  rw [get?_declareLocal, get?_declareLocal]
  split
  · have found := widened name
    rename_i equal
    subst equal
    generalize table.get? asked = entry at found ⊢
    generalize other.get? asked = otherEntry at found ⊢
    cases found with
    | both same =>
      dsimp only
      rw [same.isLiteral_eq]
      split
      · exact .both (.refl _)
      · exact .both (same.rename generated)
    | neither => exact .both (.refl _)
    | extra added =>
      -- A global name that is declared as a local one becomes the same as if it were new.
      rw [added.plain]
      exact .both (.refl _)
  · exact widened asked

theorem declareGlobal (widened : table.Widened widening other) (name : String) :
    (table.declareGlobal name).Widened widening (other.declareGlobal name) := by
  intro asked
  rw [get?_declareGlobal, get?_declareGlobal]
  by_cases equal : asked = name
  · subst equal
    have found := widened asked
    generalize table.get? asked = entry at found ⊢
    generalize other.get? asked = otherEntry at found ⊢
    cases found with
    | both same => simpa using Beside.both same
    | neither => simpa using Beside.both (.refl _)
    | extra added => simpa [added.plain] using Beside.both (.refl _)
  · simpa [equal] using widened asked

theorem pass (widened : table.Widened widening other) (passes : widening.passes name) :
    table.Widened widening (other.declareGlobal name) := by
  intro asked
  rw [get?_declareGlobal]
  split
  · rename_i both
    obtain ⟨rfl, absent⟩ := both
    have found := widened asked
    rw [absent] at found
    generalize table.get? asked = entry at found ⊢
    cases found with
    | neither => exact .extra ⟨rfl, passes⟩
  · exact widened asked

theorem declareLiteral (widened : table.Widened widening other) {text otherText : String}
    (same : otherText = text ∨ widening.strays name) :
    (table.declareLiteral name text).Widened widening (other.declareLiteral name otherText) :=
  widened.put (.plain_literal same)

theorem compose (widened : table.Widened widening other) (own : ¬ widening.passes name)
    {names otherNames : List String} {isExternal otherExternal : Bool}
    (same : ¬ widening.strays name → otherNames = names ∧ otherExternal = isExternal) :
    (table.compose name names isExternal).Widened widening
      (other.compose name otherNames otherExternal) := by
  refine widened.put (TokenEntry.Widened.add ?_ same)
  have found := widened name
  generalize table.get? name = entry at found ⊢
  generalize other.get? name = otherEntry at found ⊢
  cases found with
  | both same => exact same
  | neither => exact .refl _
  | extra added => exact absurd added.passes own

end TokenTable.Widened

/-! ## States -/

/-- What matches in states that differ in global names. -/
def Widening.matching (widening : Widening) : Matching where
  tables := TokenTable.Widened widening
  writes := widening.strays
  borrows := widening.drifts
  aliases name names otherNames := otherNames = names ∨ widening.drifts name
  keyframes _ text otherText := otherText = text

theorem Widening.keepsLiterals : widening.matching.KeepsLiterals := fun widened same =>
  TokenTable.Widened.declareLiteral widened same

/-- States of one file that differ in global names, and in what may differ through them. -/
abbrev ModuleState.Widened (widening : Widening) (state other : ModuleState) : Prop :=
  state.Matches widening.matching other

/-- While a file is collected, any global name may be exported, and nothing differs else. -/
def Widening.collecting : Widening where
  passes _ := True
  strays _ := False
  drifts _ := False

theorem Widening.keepsNames_collecting {context other : FileContext}
    (scopedName : other.scopedName = context.scopedName) :
    Widening.collecting.matching.KeepsNames context other where
  declareLocal name widened := by
    rw [scopedName]
    exact TokenTable.Widened.declareLocal widened name _
  declareGlobal name widened := TokenTable.Widened.declareGlobal widened name
  keyframes name := by
    rw [scopedName]
    rfl

/-! ## Sheets -/

/-- Texts that were the same before each state was substituted in them. They stay the same unless
they mention a symbol that may differ. -/
def TextLikeness.drifting (widening : Widening) (state other : ModuleState) : TextLikeness where
  selectors := Eq
  params name text otherText := ∃ raw,
    text = Substitution.params state name raw ∧ otherText = Substitution.params other name raw ∧
      ((∀ mentioned ∈ mentionedNames raw, ¬ widening.drifts mentioned) → otherText = text)
  values property text otherText := ∃ content raw, content.property = property ∧
    text = Substitution.value state content raw ∧ otherText = Substitution.value other content raw ∧
      ((∀ mentioned ∈ mentionedNames raw, ¬ widening.drifts mentioned) → otherText = text)

variable {state other : ModuleState}

theorem drifting_params (widened : state.Widened widening other) (name raw : String) :
    (TextLikeness.drifting widening state other).params name (Substitution.params state name raw)
      (Substitution.params other name raw) := by
  refine ⟨raw, rfl, rfl, fun steady => ?_⟩
  unfold Substitution.params
  rw [substituteSymbols_eq widened.symbols steady]

theorem drifting_value (widened : state.Widened widening other) (content : Declaration)
    (raw : String) :
    (TextLikeness.drifting widening state other).values content.property
      (Substitution.value state content raw) (Substitution.value other content raw) := by
  refine ⟨content, raw, rfl, rfl, rfl, fun steady => ?_⟩
  unfold Substitution.value
  rw [OrderedMap.Alike.eq widened.keyframes, substituteSymbols_eq widened.symbols steady]

mutual
theorem Node.alike_substitution (widened : state.Widened widening other) :
    (node : Node) → AlikeAll (.drifting widening state other) [Substitution.node state node]
      [Substitution.node other node]
  | .rule selector body location => by
    unfold Substitution.node
    exact .rule rfl (Node.alikeAll_substitution widened body) .nil
  | .block name text body location => by
    unfold Substitution.node
    exact .block (drifting_params widened name text) (Node.alikeAll_substitution widened body) .nil
  | .statement name text location => by
    unfold Substitution.node
    exact .statement (drifting_params widened name text) .nil
  | .declaration ⟨property, value, location⟩ => by
    unfold Substitution.node
    refine .declaration ?_ .nil
    cases value with
    | none => exact .none
    | some text => exact .some (drifting_value widened ⟨property, some text, location⟩ text)
  | .comment text location => by
    unfold Substitution.node
    exact .comment .nil

theorem Node.alikeAll_substitution (widened : state.Widened widening other) :
    (nodes : List Node) → AlikeAll (.drifting widening state other)
      (Substitution.nodes state nodes) (Substitution.nodes other nodes)
  | [] => by
    unfold Substitution.nodes
    exact .nil
  | first :: rest => by
    unfold Substitution.nodes
    exact (Node.alike_substitution widened first).append
      (Node.alikeAll_substitution widened rest)
end

theorem Node.AlikeAll.eq_of_steady {nodes others : List Node}
    (alike : AlikeAll (.drifting widening state other) nodes others)
    (steady : ∀ symbol, ¬ widening.drifts symbol) : others = nodes := by
  have same : AlikeAll .equality nodes others := by
    refine alike.mono (fun _ _ => id) ?_ ?_
    · rintro name text otherText ⟨_, _, _, same⟩
      exact (same fun symbol _ => steady symbol).symm
    · rintro property text otherText ⟨_, _, _, _, _, same⟩
      exact (same fun symbol _ => steady symbol).symm
  exact same.eq

end ScopedStyles
