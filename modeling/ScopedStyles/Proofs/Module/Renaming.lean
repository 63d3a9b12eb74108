import ScopedStyles.Proofs.Module.Counterparts
import ScopedStyles.Proofs.Module.Matching

/-!
States that differ in names. A file is compiled twice, with two functions that make its scoped
names. What is known about the file differs in the names made, in the names composed into owners,
and in the texts that some literals and symbols stand for, and in nothing else: the same names wait,
and every entry is of the same kind. Everything that can happen to a state keeps this.
-/

namespace ScopedStyles

/-- What may differ when a file is compiled twice. -/
structure Variation where
  /-- The scoped names that are made the first time. -/
  first : String → String
  /-- The scoped names that are made the second time. -/
  second : String → String
  /-- Whether a scoped name is made for a name. -/
  scopes : String → Prop
  /-- Whether names are composed into a name. -/
  owns : String → Prop
  /-- Whether the literal with this name may have another text. -/
  writes : String → Prop
  /-- Whether the symbol with this name may have another text. -/
  borrows : String → Prop

variable {variation : Variation} {name : String}

/-! ## Entries -/

/-- Entries of one kind. Only a scoped name or the text of a literal may differ, and the composed
names of an owner. -/
structure TokenEntry.Renamed (variation : Variation) (name : String) (entry other : TokenEntry) :
    Prop where
  kind : other.kind = entry.kind
  composedLocal : other.composedLocal = entry.composedLocal
  composedExternal : other.composedExternal = entry.composedExternal
  primary : other.primary = entry.primary ∨
    (entry.kind = .localName ∧ variation.scopes name ∧ entry.primary = variation.first name ∧
      other.primary = variation.second name) ∨
    (entry.kind = .literal ∧ variation.writes name)
  composed : (entry.composed = [] ∧ other.composed = []) ∨ variation.owns name

namespace TokenEntry.Renamed

variable {entry other : TokenEntry}

theorem isLiteral_eq (renamed : entry.Renamed variation name other) :
    other.isLiteral = entry.isLiteral := by
  rw [isLiteral, renamed.kind, isLiteral]

theorem plain (kind : TokenKind) (primary : String) :
    Renamed variation name (.plain kind primary) (.plain kind primary) :=
  ⟨rfl, rfl, rfl, .inl rfl, .inl ⟨rfl, rfl⟩⟩

theorem plain_local (scopes : variation.scopes name) :
    Renamed variation name (.plain .localName (variation.first name))
      (.plain .localName (variation.second name)) :=
  ⟨rfl, rfl, rfl, .inr (.inl ⟨rfl, scopes, rfl, rfl⟩), .inl ⟨rfl, rfl⟩⟩

theorem plain_literal {text otherText : String}
    (same : otherText = text ∨ variation.writes name) :
    Renamed variation name (.plain .literal text) (.plain .literal otherText) :=
  ⟨rfl, rfl, rfl, same.imp_right fun writes => .inr ⟨rfl, writes⟩, .inl ⟨rfl, rfl⟩⟩

theorem rename (renamed : entry.Renamed variation name other) (scopes : variation.scopes name) :
    (entry.rename (variation.first name)).Renamed variation name
      (other.rename (variation.second name)) where
  kind := rfl
  composedLocal := renamed.composedLocal
  composedExternal := renamed.composedExternal
  primary := .inr (.inl ⟨rfl, scopes, rfl, rfl⟩)
  composed := renamed.composed.imp_left fun none => by simp [TokenEntry.rename, none]

theorem add (renamed : entry.Renamed variation name other) (owns : variation.owns name)
    (names otherNames : List String) (isExternal : Bool) :
    (entry.add names isExternal).Renamed variation name (other.add otherNames isExternal) where
  kind := renamed.kind
  composedLocal := by simp [TokenEntry.add, renamed.composedLocal]
  composedExternal := by simp [TokenEntry.add, renamed.composedExternal]
  primary := renamed.primary
  composed := .inr owns

/-- The names of an entry differ only if the name is scoped, owns compositions, or is a literal
that may differ. -/
theorem joined_eq (renamed : entry.Renamed variation name other) (global : ¬ variation.scopes name)
    (free : ¬ variation.owns name) (kept : ¬ variation.writes name) :
    other.joined = entry.joined := by
  have primary : other.primary = entry.primary := by
    rcases renamed.primary with same | ⟨_, scopes, _⟩ | ⟨_, writes⟩
    · exact same
    · exact absurd scopes global
    · exact absurd writes kept
  have composed := renamed.composed.resolve_right free
  rw [joined, names, primary, composed.2, joined, names, composed.1]

end TokenEntry.Renamed

/-! ## Tables -/

/-- Tables with the same keys in the same order. -/
def TokenTable.Renamed (variation : Variation) (table other : TokenTable) : Prop :=
  table.entries.Alike (TokenEntry.Renamed variation) other.entries

namespace TokenTable.Renamed

variable {table other : TokenTable}

theorem put (renamed : table.Renamed variation other) {entry otherEntry : TokenEntry}
    (same : entry.Renamed variation name otherEntry) :
    (table.put name entry).Renamed variation (other.put name otherEntry) :=
  OrderedMap.Alike.insert renamed same

theorem declareLocal (renamed : table.Renamed variation other) (scopes : variation.scopes name) :
    (table.declareLocal name (variation.first name)).Renamed variation
      (other.declareLocal name (variation.second name)) := by
  have found := OrderedMap.Alike.get? renamed name
  unfold TokenTable.declareLocal TokenTable.get?
  generalize table.entries.get? name = entry at found ⊢
  generalize other.entries.get? name = otherEntry at found ⊢
  cases found with
  | none => exact renamed.put (.plain_local scopes)
  | some same =>
    dsimp only
    rw [same.isLiteral_eq]
    split
    · exact renamed.put (.plain_local scopes)
    · exact renamed.put (same.rename scopes)

theorem declareGlobal (renamed : table.Renamed variation other) (name : String) :
    (table.declareGlobal name).Renamed variation (other.declareGlobal name) := by
  unfold TokenTable.declareGlobal TokenTable.contains
  rw [OrderedMap.Alike.contains_eq renamed]
  split
  · exact renamed
  · exact renamed.put (.plain .globalName name)

theorem declareLiteral (renamed : table.Renamed variation other) {text otherText : String}
    (same : otherText = text ∨ variation.writes name) :
    (table.declareLiteral name text).Renamed variation (other.declareLiteral name otherText) :=
  renamed.put (.plain_literal same)

theorem compose (renamed : table.Renamed variation other) (owns : variation.owns name)
    (names otherNames : List String) (isExternal : Bool) :
    (table.compose name names isExternal).Renamed variation
      (other.compose name otherNames isExternal) := by
  have found := OrderedMap.Alike.get? renamed name
  unfold TokenTable.compose TokenTable.get?
  refine renamed.put (TokenEntry.Renamed.add ?_ owns names otherNames isExternal)
  generalize table.entries.get? name = entry at found ⊢
  generalize other.entries.get? name = otherEntry at found ⊢
  cases found with
  | none => exact .plain .localName name
  | some same => exact same

end TokenTable.Renamed

/-! ## States -/

/-- States of one file that differ in names only. -/
structure ModuleState.Renamed (variation : Variation) (state other : ModuleState) : Prop where
  table : state.table.Renamed variation other.table
  compositions : other.compositions = state.compositions
  pending : other.pending = state.pending
  imports : other.imports = state.imports
  valueAliases : other.valueAliases = state.valueAliases
  literals : other.literals = state.literals
  symbols : state.symbols.Alike
    (fun name text otherText => otherText = text ∨ variation.borrows name) other.symbols
  classAliases : state.classAliases.Alike (fun _ _ _ => True) other.classAliases
  keyframes : state.keyframes.Alike
    (fun name text otherText => text = variation.first name ∧ otherText = variation.second name)
    other.keyframes

/-- What matches in states that differ in names. -/
def Variation.matching (variation : Variation) : Matching where
  tables := TokenTable.Renamed variation
  writes := variation.writes
  borrows := variation.borrows
  aliases _ _ _ := True
  keyframes name text otherText := text = variation.first name ∧ otherText = variation.second name

theorem Variation.keepsLiterals : variation.matching.KeepsLiterals := fun renamed same =>
  TokenTable.Renamed.declareLiteral renamed same

namespace ModuleState

variable {state other : ModuleState}

theorem renamed_iff : state.Renamed variation other ↔ state.Matches variation.matching other :=
  ⟨fun ⟨table, compositions, pending, imports, aliases, literals, symbols, classes, keyframes⟩ =>
      ⟨table, compositions, pending, imports, aliases, literals, symbols, classes, keyframes⟩,
    fun ⟨table, compositions, pending, imports, aliases, literals, symbols, classes, keyframes⟩ =>
      ⟨table, compositions, pending, imports, aliases, literals, symbols, classes, keyframes⟩⟩

namespace Renamed

theorem empty : ModuleState.empty.Renamed variation .empty :=
  renamed_iff.mpr (.empty .nil)

theorem release (renamed : state.Renamed variation other) (name : String) :
    (state.release name).Renamed variation (other.release name) :=
  renamed_iff.mpr ((renamed_iff.mp renamed).release name)

theorem compose (renamed : state.Renamed variation other) (owns : variation.owns name)
    (names otherNames : List String) (isExternal : Bool) :
    (state.compose name names isExternal).Renamed variation
      (other.compose name otherNames isExternal) :=
  { renamed with table := renamed.table.compose owns names otherNames isExternal }

theorem settleLiterals (renamed : state.Renamed variation other)
    (admits : ∀ entry ∈ state.literals.entries, variation.matching.Admits entry.1 entry.2)
    (blocked : List String) :
    (state.settleLiterals blocked).Renamed variation (other.settleLiterals blocked) :=
  renamed_iff.mpr ((renamed_iff.mp renamed).settleLiterals Variation.keepsLiterals admits blocked)

theorem recordImported (renamed : state.Renamed variation other) {localName : String}
    {entry otherEntry : TokenEntry} (isLiteral : otherEntry.isLiteral = entry.isLiteral)
    (same : otherEntry.joined = entry.joined ∨ variation.borrows localName)
    (aliases : localName ∈ state.valueAliases → variation.borrows localName →
      variation.writes localName) :
    (state.recordImported localName entry).Renamed variation
      (other.recordImported localName otherEntry) :=
  renamed_iff.mpr ((renamed_iff.mp renamed).recordImported Variation.keepsLiterals isLiteral same
    trivial aliases)

end Renamed

end ModuleState

/-- While a file is collected, nothing but the scoped names differs. -/
def Variation.collecting (context other : FileContext) : Variation where
  first := context.scopedName
  second := other.scopedName
  scopes _ := True
  owns _ := False
  writes _ := False
  borrows _ := False

theorem Variation.keepsNames_collecting (context other : FileContext) :
    (Variation.collecting context other).matching.KeepsNames context other where
  declareLocal _ renamed := TokenTable.Renamed.declareLocal renamed trivial
  declareGlobal name renamed := TokenTable.Renamed.declareGlobal renamed name
  keyframes _ := ⟨rfl, rfl⟩

theorem ModuleState.Renamed.replay {context otherContext : FileContext}
    {state other : ModuleState}
    (renamed : state.Renamed (.collecting context otherContext) other) (records : List Record) :
    (records.foldl (Record.declare context) state).Renamed (.collecting context otherContext)
      (records.foldl (Record.declare otherContext) other) :=
  renamed_iff.mpr ((renamed_iff.mp renamed).replay Variation.keepsLiterals
    (Variation.keepsNames_collecting context otherContext) records)

/-! ## Sheets -/

/-- Texts that were the same before each state was substituted in them, but for scoped names. They
stay the same unless they mention a symbol that may differ, or keyframes in an animation. -/
def TextLikeness.substituted (variation : Variation) (state other : ModuleState) :
    TextLikeness where
  selectors := (TextLikeness.renamed variation.first variation.second).selectors
  params name text otherText :=
    if Keyframes.isKeyframes name then
      (TextLikeness.renamed variation.first variation.second).params name text otherText
    else ∃ raw, text = substituteSymbols state.symbols raw ∧
      otherText = substituteSymbols other.symbols raw ∧
      ((∀ mentioned ∈ mentionedNames raw, ¬ variation.borrows mentioned) → otherText = text)
  values property text otherText := ∃ content raw, content.property = property ∧
    text = Substitution.value state content raw ∧
    otherText = Substitution.value other content raw ∧
    ((∀ mentioned ∈ mentionedNames raw, ¬ variation.borrows mentioned) →
      Keyframes.isAnimation content.name = false ∨ state.keyframes.isEmpty → otherText = text)

variable {state other : ModuleState}

theorem substituted_params (renamed : state.Renamed variation other) {name text otherText : String}
    (alike : (TextLikeness.renamed variation.first variation.second).params name text otherText) :
    (TextLikeness.substituted variation state other).params name
      (Substitution.params state name text) (Substitution.params other name otherText) := by
  by_cases isKeyframes : Keyframes.isKeyframes name
  · simpa [TextLikeness.substituted, Substitution.params, isKeyframes] using alike
  · obtain rfl | ⟨keyframes, _⟩ := alike
    · simp only [TextLikeness.substituted, Substitution.params, isKeyframes, Bool.false_eq_true,
        ↓reduceIte]
      exact ⟨text, rfl, rfl, substituteSymbols_eq renamed.symbols⟩
    · exact absurd keyframes isKeyframes

theorem substituted_value (renamed : state.Renamed variation other) (content : Declaration)
    (raw : String) :
    (TextLikeness.substituted variation state other).values content.property
      (Substitution.value state content raw) (Substitution.value other content raw) := by
  refine ⟨content, raw, rfl, rfl, rfl, fun own plain => ?_⟩
  have none : (Keyframes.isAnimation content.name && !state.keyframes.isEmpty) = false := by
    rcases plain with plain | plain <;> simp [plain]
  unfold Substitution.value
  rw [renamed.keyframes.isEmpty_eq, none, substituteSymbols_eq renamed.symbols own,
    if_neg Bool.false_ne_true, if_neg Bool.false_ne_true]

/-- Substituting states that differ in names keeps the shape of a sheet. -/
theorem Node.AlikeAll.substitute (renamed : state.Renamed variation other)
    {nodes others : List Node}
    (alike : AlikeAll (.renamed variation.first variation.second) nodes others) :
    AlikeAll (.substituted variation state other) (Substitution.nodes state nodes)
      (Substitution.nodes other others) := by
  induction alike with
  | nil => exact .nil
  | rule head _ _ inside after => exact .rule head inside after
  | block head _ _ inside after => exact .block (substituted_params renamed head) inside after
  | statement head _ after => exact .statement (substituted_params renamed head) after
  | @declaration property value otherValue location _ _ same _ after =>
    refine .declaration ?_ after
    cases same with
    | none => exact .none
    | @some text otherText same =>
      obtain rfl : text = otherText := same
      exact .some (substituted_value renamed ⟨property, _, location⟩ text)
  | comment _ after => exact .comment after

end ScopedStyles
