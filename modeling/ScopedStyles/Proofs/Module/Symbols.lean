import ScopedStyles.Proofs.Module.Development

/-!
The texts that stand for names while a file is compiled. A name gets its text when a value is
settled or an import is recorded, and has one from then on.
-/

namespace ScopedStyles.ModuleState

variable {state later : ModuleState} {kept : String → Prop} {name : String}

theorem get?_symbols_settle (state : ModuleState) (name other : String) (literal : Literal) :
    (state.settle name literal).symbols.get? other =
      if other = name ∧ literal.isValue then
        some (substituteSymbols state.symbols literal.raw)
      else state.symbols.get? other := by
  cases isValue : literal.isValue <;>
    simp [settle, isValue, release, declareLiteral, addSymbol, OrderedMap.get?_insert]

theorem get?_symbols_recordImported (state : ModuleState) (localName other : String)
    (entry : TokenEntry) :
    (state.recordImported localName entry).symbols.get? other =
      if other = localName then some entry.joined else state.symbols.get? other := by
  have symbols : (state.recordImported localName entry).symbols =
      state.symbols.insert localName entry.joined := by
    unfold recordImported
    dsimp only
    split
    · rfl
    · split <;> rfl
  rw [symbols, OrderedMap.get?_insert]

theorem get?_symbols_settleLiterals (absent : ¬ state.literals.contains name)
    (blocked : List String) :
    (state.settleLiterals blocked).symbols.get? name = state.symbols.get? name := by
  refine settleLiterals_induction
    (motive := fun later => later.symbols.get? name = state.symbols.get? name) rfl ?_ ?_ blocked
  · exact fun _ _ _ _ same => same
  · intro other literal known later same
    have different : name ≠ other := fun equal => absent (equal ▸ known)
    simp [get?_symbols_settle, different, same]

theorem contains_symbols_settle (name : String) (literal : Literal) {other : String}
    (known : state.symbols.contains other) :
    (state.settle name literal).symbols.contains other := by
  rw [OrderedMap.contains, get?_symbols_settle]
  split
  · rfl
  · exact known

theorem Change.contains_symbols (change : Change kept state later)
    (known : state.symbols.contains name) : later.symbols.contains name := by
  cases change with
  | settled blocked =>
    refine settleLiterals_induction (motive := fun later => later.symbols.contains name) known ?_ ?_
      blocked
    · exact fun _ _ _ _ known => known
    · exact fun other literal _ _ known => contains_symbols_settle other literal known
  | imported =>
    rw [OrderedMap.contains, get?_symbols_recordImported]
    split
    · rfl
    · exact known
  | composed => exact known
  | released => exact known

theorem Develops.contains_symbols (develops : Develops kept state later)
    (known : state.symbols.contains name) : later.symbols.contains name := by
  induction develops with
  | refl => exact known
  | tail _ change earlier => exact change.contains_symbols earlier

/-- A state that a file can be closed with: its owners are released, no literal is left, and each
of its imports has a text. -/
structure Complete (state : ModuleState) : Prop where
  released : ∀ owner, state.compositions.contains owner → owner ∉ state.pending
  settled : ∀ name, ¬ state.literals.contains name
  imported : ∀ reference ∈ state.imports, state.symbols.contains reference.localName

end ScopedStyles.ModuleState
