import Mathlib.Logic.Relation
import ScopedStyles.Module.Settlement

/-!
How the state of a file develops once its declarations have been collected. There are four kinds
of changes; whatever holds of a file throughout its compilation is shown for each of them once.
-/

namespace ScopedStyles

/-! ## Tables -/

namespace TokenTable

theorem get?_put (table : TokenTable) (name other : String) (entry : TokenEntry) :
    (table.put name entry).get? other = if other = name then some entry else table.get? other :=
  OrderedMap.get?_insert table.entries name other entry

theorem get?_declareLiteral (table : TokenTable) (name other value : String) :
    (table.declareLiteral name value).get? other =
      if other = name then some (.plain .literal value) else table.get? other :=
  get?_put table name other _

theorem get?_compose (table : TokenTable) (name other : String) (names : List String)
    (isExternal : Bool) :
    (table.compose name names isExternal).get? other =
      if other = name then
        some (((table.get? name).getD (.plain .localName name)).add names isExternal)
      else table.get? other :=
  get?_put table name other _

end TokenTable

namespace ModuleState

theorem mem_await {state : ModuleState} {name other : String} :
    other ∈ (state.await name).pending ↔ other = name ∨ other ∈ state.pending :=
  mem_addNew

theorem mem_release {state : ModuleState} {name other : String} :
    other ∈ (state.release name).pending ↔ other ∈ state.pending ∧ other ≠ name := by
  simp [release]

theorem contains_of_mem_compositionsOf {state : ModuleState} {owner : String}
    {composition : Composition} (member : composition ∈ state.compositionsOf owner) :
    state.compositions.contains owner := by
  rw [OrderedMap.contains_iff_get?]
  cases found : state.compositions.get? owner with
  | none => simp [compositionsOf, found] at member
  | some compositions => exact ⟨compositions, rfl⟩

/-! ## Settling literals -/

/-- What holds of a state and is kept when one of some literals is postponed or settled holds once
all of them have been looked at. -/
theorem settleEach_induction {motive : ModuleState → Prop} {literals : List (String × Literal)}
    (postponed : ∀ entry ∈ literals, ∀ state, motive state →
      motive (state.postpone entry.1 entry.2))
    (settled : ∀ entry ∈ literals, ∀ state, motive state → motive (state.settle entry.1 entry.2))
    (blocked : List String) {state : ModuleState} (start : motive state) :
    motive (settleEach blocked literals state) := by
  induction literals generalizing blocked state with
  | nil => exact start
  | cons first rest induction =>
    have later := induction (fun entry member => postponed entry (List.mem_cons_of_mem _ member))
      (fun entry member => settled entry (List.mem_cons_of_mem _ member))
    rcases first with ⟨name, literal⟩
    unfold settleEach
    split
    · exact later _ (postponed (name, literal) List.mem_cons_self state start)
    · exact later _ (settled (name, literal) List.mem_cons_self state start)

theorem mem_settlementOrder {literals : List (String × Literal)} {entry : String × Literal} :
    entry ∈ settlementOrder literals ↔ entry ∈ literals := by
  cases isValue : entry.2.isValue <;> simp [settlementOrder, isValue]

theorem settleLiterals_induction {motive : ModuleState → Prop} {state : ModuleState}
    (start : motive { state with literals := .empty })
    (postponed : ∀ name literal, state.literals.contains name → ∀ later, motive later →
      motive (later.postpone name literal))
    (settled : ∀ name literal, state.literals.contains name → ∀ later, motive later →
      motive (later.settle name literal))
    (blocked : List String) : motive (state.settleLiterals blocked) := by
  refine settleEach_induction ?_ ?_ blocked start
  · intro entry member
    exact postponed entry.1 entry.2
      (OrderedMap.contains_of_mem_entries (mem_settlementOrder.mp member))
  · intro entry member
    exact settled entry.1 entry.2
      (OrderedMap.contains_of_mem_entries (mem_settlementOrder.mp member))

theorem get?_table_settle (state : ModuleState) (name other : String) (literal : Literal) :
    (state.settle name literal).table.get? other =
      if other = name then
        some (.plain .literal (substituteSymbols state.symbols literal.raw))
      else state.table.get? other := by
  unfold settle
  split <;> exact TokenTable.get?_declareLiteral state.table name other _

theorem mem_pending_settle {state : ModuleState} {name other : String} {literal : Literal} :
    other ∈ (state.settle name literal).pending ↔ other ∈ state.pending ∧ other ≠ name := by
  unfold settle
  split <;> exact mem_release

theorem literals_settle (state : ModuleState) (name : String) (literal : Literal) :
    (state.settle name literal).literals = state.literals := by
  unfold settle
  split <;> rfl

theorem literals_contains_postpone {state : ModuleState} {name other : String}
    {literal : Literal} :
    (state.postpone name literal).literals.contains other ↔
      other = name ∨ state.literals.contains other := by
  simp [postpone, await, OrderedMap.contains_insert]

/-- A state that has the same declarations; the second pass changes none of them. -/
structure SameDeclarations (state later : ModuleState) : Prop where
  compositions : later.compositions = state.compositions
  imports : later.imports = state.imports
  valueAliases : later.valueAliases = state.valueAliases
  keyframes : later.keyframes = state.keyframes

theorem SameDeclarations.refl (state : ModuleState) : SameDeclarations state state :=
  ⟨rfl, rfl, rfl, rfl⟩

theorem SameDeclarations.trans {first second third : ModuleState}
    (left : SameDeclarations first second) (right : SameDeclarations second third) :
    SameDeclarations first third :=
  ⟨right.compositions.trans left.compositions, right.imports.trans left.imports,
    right.valueAliases.trans left.valueAliases, right.keyframes.trans left.keyframes⟩

theorem SameDeclarations.settle {state later : ModuleState}
    (same : SameDeclarations state later) (name : String) (literal : Literal) :
    SameDeclarations state (later.settle name literal) := by
  unfold ModuleState.settle
  split <;> exact ⟨same.1, same.2, same.3, same.4⟩

theorem sameDeclarations_settleLiterals (state : ModuleState) (blocked : List String) :
    SameDeclarations state (state.settleLiterals blocked) := by
  refine settleLiterals_induction ⟨rfl, rfl, rfl, rfl⟩ ?_ ?_ blocked
  · intro name literal _ later same
    exact ⟨same.1, same.2, same.3, same.4⟩
  · intro name literal _ later same
    exact same.settle name literal

theorem contains_literals_of_settleLiterals {state : ModuleState} {blocked : List String}
    {name : String} (remains : (state.settleLiterals blocked).literals.contains name) :
    state.literals.contains name := by
  revert remains
  refine settleLiterals_induction
    (motive := fun later => later.literals.contains name → state.literals.contains name)
    ?_ ?_ ?_ blocked
  · intro remains
    cases remains
  · intro other literal known later holds remains
    rcases literals_contains_postpone.mp remains with equal | remains
    · exact equal ▸ known
    · exact holds remains
  · intro other literal _ later holds remains
    rw [literals_settle] at remains
    exact holds remains

theorem settleLiterals_of_not_contains {state : ModuleState} {name : String}
    (absent : ¬ state.literals.contains name) (blocked : List String) :
    (state.settleLiterals blocked).table.get? name = state.table.get? name ∧
      (name ∈ (state.settleLiterals blocked).pending ↔ name ∈ state.pending) := by
  refine settleLiterals_induction
    (motive := fun later => later.table.get? name = state.table.get? name ∧
      (name ∈ later.pending ↔ name ∈ state.pending)) ⟨rfl, Iff.rfl⟩ ?_ ?_ blocked
  · intro other literal known later same
    have different : name ≠ other := fun equal => absent (equal ▸ known)
    refine ⟨same.1, ?_⟩
    change name ∈ (later.await other).pending ↔ _
    rw [mem_await, same.2]
    simp [different]
  · intro other literal known later same
    have different : name ≠ other := fun equal => absent (equal ▸ known)
    rw [get?_table_settle, if_neg different, mem_pending_settle]
    exact ⟨same.1, by simp [same.2, different]⟩

theorem literals_settleLiterals_nil (state : ModuleState) :
    (state.settleLiterals []).literals = .empty := by
  have kept : ∀ literals later, (settleEach [] literals later).literals = later.literals := by
    intro literals
    induction literals with
    | nil => exact fun _ => rfl
    | cons first rest induction =>
      intro later
      rcases first with ⟨name, literal⟩
      have free : literal.dependsOn [] = false := by simp [Literal.dependsOn]
      rw [settleEach, if_neg (by simp [free]), induction, literals_settle]
  exact kept _ _

theorem contains_literals_settleEach {literals : List (String × Literal)} {blocked : List String}
    {state : ModuleState} {name : String} (known : state.literals.contains name) :
    (settleEach blocked literals state).literals.contains name := by
  refine settleEach_induction (motive := fun later => later.literals.contains name) ?_ ?_ blocked
    known
  · exact fun entry _ later known => literals_contains_postpone.mpr (.inr known)
  · intro entry _ later known
    rw [literals_settle]
    exact known

theorem mem_pending_settleEach {literals : List (String × Literal)} {blocked : List String}
    {state : ModuleState} {name : String}
    (waits : name ∈ (settleEach blocked literals state).pending) :
    (name ∈ state.pending ∧ name ∉ literals.map Prod.fst) ∨
      (settleEach blocked literals state).literals.contains name := by
  induction literals generalizing blocked state with
  | nil => exact .inl ⟨waits, List.not_mem_nil⟩
  | cons first rest induction =>
    rcases first with ⟨other, literal⟩
    unfold settleEach at waits ⊢
    split at waits
    · rename_i blocks
      rw [if_pos blocks]
      rcases induction waits with ⟨earlier, absent⟩ | postponed
      · rcases mem_await.mp earlier with equal | earlier
        · exact .inr (contains_literals_settleEach (literals_contains_postpone.mpr (.inl equal)))
        · by_cases equal : name = other
          · exact .inr (contains_literals_settleEach (literals_contains_postpone.mpr (.inl equal)))
          · exact .inl ⟨earlier, by simp [equal, absent]⟩
      · exact .inr postponed
    · rename_i free
      rw [if_neg free]
      rcases induction waits with ⟨earlier, absent⟩ | postponed
      · rcases mem_pending_settle.mp earlier with ⟨earlier, different⟩
        exact .inl ⟨earlier, by simp [different, absent]⟩
      · exact .inr postponed

/-- A name that waits once literals have been settled is no literal, or one that is postponed. -/
theorem mem_pending_settleLiterals {state : ModuleState} {blocked : List String} {name : String}
    (waits : name ∈ (state.settleLiterals blocked).pending) :
    (name ∈ state.pending ∧ ¬ state.literals.contains name) ∨
      (state.settleLiterals blocked).literals.contains name := by
  rcases mem_pending_settleEach waits with ⟨earlier, absent⟩ | postponed
  · refine .inl ⟨earlier, fun known => absent ?_⟩
    rcases (OrderedMap.contains_iff_get? _ name).mp known with ⟨literal, found⟩
    exact List.mem_map_of_mem
      (mem_settlementOrder.mpr (OrderedMap.mem_entries_of_get? found))
  · exact .inr postponed

/-! ## Recording imports -/

theorem get?_table_recordImported (state : ModuleState) (localName other : String)
    (entry : TokenEntry) :
    (state.recordImported localName entry).table.get? other =
      if other = localName ∧ localName ∈ state.valueAliases then
        some (.plain .literal entry.joined)
      else state.table.get? other := by
  by_cases isAlias : localName ∈ state.valueAliases
  · simp [recordImported, addSymbol, isAlias, release, declareLiteral,
      TokenTable.get?_declareLiteral]
  · cases isLiteral : entry.isLiteral <;> simp [recordImported, addSymbol, isAlias, isLiteral]

theorem mem_pending_recordImported {state : ModuleState} {localName other : String}
    {entry : TokenEntry} :
    other ∈ (state.recordImported localName entry).pending ↔
      other ∈ state.pending ∧ ¬ (other = localName ∧ localName ∈ state.valueAliases) := by
  by_cases isAlias : localName ∈ state.valueAliases
  · simp [recordImported, addSymbol, isAlias, release, declareLiteral]
  · cases isLiteral : entry.isLiteral <;> simp [recordImported, addSymbol, isAlias, isLiteral]

theorem sameDeclarations_recordImported (state : ModuleState) (localName : String)
    (entry : TokenEntry) : SameDeclarations state (state.recordImported localName entry) := by
  unfold recordImported
  dsimp only
  split
  · exact ⟨rfl, rfl, rfl, rfl⟩
  · split <;> exact ⟨rfl, rfl, rfl, rfl⟩

theorem literals_recordImported (state : ModuleState) (localName : String)
    (entry : TokenEntry) : (state.recordImported localName entry).literals = state.literals := by
  unfold recordImported
  dsimp only
  split
  · rfl
  · split <;> rfl

/-! ## Aliases of imported classes -/

theorem classAliases_settleLiterals (state : ModuleState) (blocked : List String) :
    (state.settleLiterals blocked).classAliases = state.classAliases := by
  refine settleLiterals_induction (motive := fun later => later.classAliases = state.classAliases)
    rfl ?_ ?_ blocked
  · exact fun name literal _ later same => same
  · intro name literal _ later same
    rw [← same, settle]
    split <;> rfl

/-- Recording an import adds the alias of an imported class, and changes no other one. -/
theorem get?_classAliases_recordImported {state : ModuleState} {localName name : String}
    {entry : TokenEntry} {names : List String}
    (found : (state.recordImported localName entry).classAliases.get? name = some names) :
    state.classAliases.get? name = some names ∨
      (name = localName ∧ entry.isLiteral = false ∧ names = entry.names) := by
  by_cases isAlias : localName ∈ state.valueAliases
  · exact .inl (by simpa [recordImported, addSymbol, isAlias, release, declareLiteral] using found)
  cases isLiteral : entry.isLiteral with
  | true => exact .inl (by simpa [recordImported, addSymbol, isAlias, isLiteral] using found)
  | false =>
    have inserted : (state.classAliases.insert localName entry.names).get? name = some names := by
      simpa [recordImported, addSymbol, isAlias, isLiteral] using found
    rw [OrderedMap.get?_insert] at inserted
    split at inserted
    · rename_i equal
      exact .inr ⟨equal, rfl, (Option.some.inj inserted).symm⟩
    · exact .inl inserted

/-! ## Changes -/

/-- One change of a state in the second pass. Names that are `kept`, those whose compositions are
being resolved, are not composed into, and only literals among them cease to wait. -/
inductive Change (kept : String → Prop) (state : ModuleState) : ModuleState → Prop where
  | settled (blocked : List String) : Change kept state (state.settleLiterals blocked)
  | imported {reference : ImportReference} (listed : reference ∈ state.imports)
      (entry : TokenEntry) : Change kept state (state.recordImported reference.localName entry)
  | composed {owner : String} (owns : state.compositions.contains owner) (free : ¬ kept owner)
      (names : List String) (isExternal : Bool) :
      Change kept state (state.compose owner names isExternal)
  | released {name : String} (free : ¬ kept name) : Change kept state (state.release name)

/-- What can become of a state in the second pass. -/
def Develops (kept : String → Prop) : ModuleState → ModuleState → Prop :=
  Relation.ReflTransGen (Change kept)

variable {kept : String → Prop} {state later : ModuleState} {name : String}

theorem Change.mono {fewer : String → Prop} (less : ∀ name, fewer name → kept name)
    (change : Change kept state later) : Change fewer state later := by
  cases change with
  | settled blocked => exact .settled blocked
  | imported listed entry => exact .imported listed entry
  | composed owns free names isExternal =>
    exact .composed owns (fun held => free (less _ held)) names isExternal
  | released free => exact .released fun held => free (less _ held)

theorem Develops.mono {fewer : String → Prop} (less : ∀ name, fewer name → kept name)
    (develops : Develops kept state later) : Develops fewer state later :=
  develops.lift id fun _ _ change => change.mono less

theorem Change.sameDeclarations (change : Change kept state later) :
    SameDeclarations state later := by
  cases change with
  | settled blocked => exact sameDeclarations_settleLiterals state blocked
  | imported listed entry => exact sameDeclarations_recordImported state _ entry
  | composed => exact ⟨rfl, rfl, rfl, rfl⟩
  | released => exact ⟨rfl, rfl, rfl, rfl⟩

theorem Develops.sameDeclarations (develops : Develops kept state later) :
    SameDeclarations state later := by
  induction develops with
  | refl => exact .refl state
  | tail _ change same => exact same.trans change.sameDeclarations

theorem Change.contains_literals (change : Change kept state later)
    (remains : later.literals.contains name) : state.literals.contains name := by
  cases change with
  | settled blocked => exact contains_literals_of_settleLiterals remains
  | imported listed entry =>
    rw [literals_recordImported] at remains
    exact remains
  | composed => exact remains
  | released => exact remains

theorem Develops.contains_literals (develops : Develops kept state later)
    (remains : later.literals.contains name) : state.literals.contains name := by
  induction develops with
  | refl => exact remains
  | tail _ change earlier => exact earlier (change.contains_literals remains)

theorem Change.mem_pending (change : Change kept state later)
    (absent : ¬ state.literals.contains name) (waits : name ∈ later.pending) :
    name ∈ state.pending := by
  cases change with
  | settled blocked => exact (settleLiterals_of_not_contains absent blocked).2.mp waits
  | imported listed entry => exact (mem_pending_recordImported.mp waits).1
  | composed => exact waits
  | released => exact (mem_release.mp waits).1

theorem Develops.mem_pending (develops : Develops kept state later)
    (absent : ¬ state.literals.contains name) (waits : name ∈ later.pending) :
    name ∈ state.pending := by
  induction develops with
  | refl => exact waits
  | tail before change earlier =>
    exact earlier
      (change.mem_pending (fun known => absent (Develops.contains_literals before known)) waits)

/-- Every name that waits has compositions, is a literal, or is the alias of an imported value. -/
def WaitsForCause (state : ModuleState) : Prop :=
  ∀ name ∈ state.pending,
    state.compositions.contains name ∨ state.literals.contains name ∨ name ∈ state.valueAliases

theorem Change.waitsForCause (change : Change kept state later) (waits : state.WaitsForCause) :
    later.WaitsForCause := by
  have same := change.sameDeclarations
  intro name pending
  rw [same.compositions, same.valueAliases]
  cases change with
  | settled blocked =>
    rcases mem_pending_settleLiterals pending with ⟨earlier, absent⟩ | postponed
    · rcases waits name earlier with owns | known | aliased
      · exact .inl owns
      · exact absurd known absent
      · exact .inr (.inr aliased)
    · exact .inr (.inl postponed)
  | imported listed entry =>
    rw [literals_recordImported]
    exact waits name (mem_pending_recordImported.mp pending).1
  | composed => exact waits name pending
  | released => exact waits name (mem_release.mp pending).1

theorem Develops.waitsForCause (develops : Develops kept state later)
    (waits : state.WaitsForCause) : later.WaitsForCause := by
  induction develops with
  | refl => exact waits
  | tail _ change earlier => exact change.waitsForCause earlier

/-- A name stands for text, if for anything. -/
def NamesText (state : ModuleState) (name : String) : Prop :=
  ∀ entry, state.table.get? name = some entry → entry.isLiteral

/-- A name that stands for text and has no compositions always stands for text. -/
theorem Change.namesText (change : Change kept state later) (namesText : state.NamesText name)
    (free : ¬ state.compositions.contains name) : later.NamesText name := by
  intro entry found
  cases change with
  | settled blocked =>
    revert entry
    refine settleLiterals_induction (motive := fun later => later.NamesText name) namesText ?_ ?_
      blocked
    · exact fun other literal _ later holds => holds
    · intro other literal _ later holds entry found
      rw [get?_table_settle] at found
      split at found
      · cases found
        rfl
      · exact holds entry found
  | imported listed known =>
    rw [get?_table_recordImported] at found
    split at found
    · cases found
      rfl
    · exact namesText entry found
  | @composed owner owns _ names isExternal =>
    apply namesText entry
    rw [← found]
    refine ((TokenTable.get?_compose ..).trans (if_neg ?_)).symm
    rintro rfl
    exact free owns
  | released => exact namesText entry found

theorem Develops.namesText (develops : Develops kept state later)
    (namesText : state.NamesText name) (free : ¬ state.compositions.contains name) :
    later.NamesText name := by
  induction develops with
  | refl => exact namesText
  | tail before change earlier =>
    apply change.namesText earlier
    rw [(Develops.sameDeclarations before).compositions]
    exact free

/-! ## Names throughout the second pass -/

/-- Nothing will be written to a name: it is neither a literal that waits nor the alias of a
value that is imported. -/
structure Unwritten (state : ModuleState) (name : String) : Prop where
  noLiteral : ¬ state.literals.contains name
  noAlias : name ∉ state.valueAliases

theorem Change.unwritten (change : Change kept state later) (unwritten : state.Unwritten name) :
    later.Unwritten name :=
  ⟨fun known => unwritten.noLiteral (change.contains_literals known),
    change.sameDeclarations.valueAliases ▸ unwritten.noAlias⟩

theorem Develops.unwritten (develops : Develops kept state later)
    (unwritten : state.Unwritten name) : later.Unwritten name :=
  ⟨fun known => unwritten.noLiteral (develops.contains_literals known),
    develops.sameDeclarations.valueAliases ▸ unwritten.noAlias⟩

/-- The entry of a name that nothing is written to changes by composition only. -/
theorem Change.get?_table (change : Change kept state later) (unwritten : state.Unwritten name) :
    later.table.get? name = state.table.get? name ∨
      (state.compositions.contains name ∧ ¬ kept name ∧ ∃ names isExternal,
        later.table.get? name =
          some (((state.table.get? name).getD (.plain .localName name)).add names isExternal)) := by
  cases change with
  | settled blocked => exact .inl (settleLiterals_of_not_contains unwritten.noLiteral blocked).1
  | @imported reference listed entry =>
    refine .inl ?_
    rw [get?_table_recordImported, if_neg]
    rintro ⟨equal, isAlias⟩
    exact unwritten.noAlias (equal ▸ isAlias)
  | @composed owner owns free names isExternal =>
    by_cases equal : name = owner
    · subst equal
      refine .inr ⟨owns, free, names, isExternal, ?_⟩
      exact (TokenTable.get?_compose state.table name name names isExternal).trans (if_pos rfl)
    · exact .inl
        ((TokenTable.get?_compose state.table owner name names isExternal).trans (if_neg equal))
  | released => exact .inl rfl

theorem Develops.get?_table_of_kept (develops : Develops kept state later)
    (unwritten : state.Unwritten name) (held : kept name) :
    later.table.get? name = state.table.get? name := by
  induction develops with
  | refl => rfl
  | tail before change earlier =>
    rcases change.get?_table (Develops.unwritten before unwritten) with same | ⟨_, free, _⟩
    · exact same.trans earlier
    · exact absurd held free

theorem Change.mem_pending_of_kept (change : Change kept state later)
    (unwritten : state.Unwritten name) (held : kept name) (waits : name ∈ state.pending) :
    name ∈ later.pending := by
  cases change with
  | settled blocked =>
    exact (settleLiterals_of_not_contains unwritten.noLiteral blocked).2.mpr waits
  | imported listed entry =>
    refine mem_pending_recordImported.mpr ⟨waits, ?_⟩
    rintro ⟨equal, isAlias⟩
    exact unwritten.noAlias (equal ▸ isAlias)
  | composed => exact waits
  | @released other free =>
    exact mem_release.mpr ⟨waits, fun equal => free (equal ▸ held)⟩

theorem Develops.mem_pending_of_kept (develops : Develops kept state later)
    (unwritten : state.Unwritten name) (held : kept name) (waits : name ∈ state.pending) :
    name ∈ later.pending := by
  induction develops with
  | refl => exact waits
  | tail before change earlier =>
    exact change.mem_pending_of_kept (Develops.unwritten before unwritten) held earlier

/-- The entry of a name has this name of its own and this kind. -/
def HasOwn (state : ModuleState) (name primary : String) (kind : TokenKind) : Prop :=
  ∃ entry, state.table.get? name = some entry ∧ entry.primary = primary ∧ entry.kind = kind

/-- What an entry is of its own stays, unless a literal is written in its place. -/
theorem Develops.hasOwn {primary : String} {kind : TokenKind}
    (develops : Develops kept state later) (unwritten : state.Unwritten name)
    (own : state.HasOwn name primary kind) : later.HasOwn name primary kind := by
  induction develops with
  | refl => exact own
  | tail before change earlier =>
    rcases earlier with ⟨entry, found, samePrimary, sameKind⟩
    rcases change.get?_table (Develops.unwritten before unwritten) with
      same | ⟨_, _, names, isExternal, composed⟩
    · exact ⟨entry, same.trans found, samePrimary, sameKind⟩
    · rw [found] at composed
      exact ⟨entry.add names isExternal, composed, samePrimary, sameKind⟩

/-- The entry of a name has this name of its own, or holds a text. -/
def HasOwnOrText (state : ModuleState) (name primary : String) : Prop :=
  ∃ entry, state.table.get? name = some entry ∧
    (entry.primary = primary ∧ entry.kind = .localName ∨ entry.isLiteral)

theorem Change.hasOwnOrText {primary : String} (change : Change kept state later)
    (own : state.HasOwnOrText name primary) : later.HasOwnOrText name primary := by
  cases change with
  | settled blocked =>
    refine settleLiterals_induction (motive := fun later => later.HasOwnOrText name primary) own
      ?_ ?_ blocked
    · exact fun other literal _ later holds => holds
    · intro other literal _ later ⟨entry, found, holds⟩
      unfold HasOwnOrText
      rw [get?_table_settle]
      split
      · exact ⟨_, rfl, .inr rfl⟩
      · exact ⟨entry, found, holds⟩
  | imported listed known =>
    rcases own with ⟨entry, found, holds⟩
    unfold HasOwnOrText
    rw [get?_table_recordImported]
    split
    · exact ⟨_, rfl, .inr rfl⟩
    · exact ⟨entry, found, holds⟩
  | @composed owner _ _ names isExternal =>
    rcases own with ⟨entry, found, holds⟩
    have composed := TokenTable.get?_compose state.table owner name names isExternal
    by_cases equal : name = owner
    · subst equal
      rw [if_pos rfl, found] at composed
      exact ⟨entry.add names isExternal, composed, holds⟩
    · exact ⟨entry, composed.trans ((if_neg equal).trans found), holds⟩
  | released => exact own

theorem Develops.hasOwnOrText {primary : String} (develops : Develops kept state later)
    (own : state.HasOwnOrText name primary) : later.HasOwnOrText name primary := by
  induction develops with
  | refl => exact own
  | tail _ change earlier => exact change.hasOwnOrText earlier

end ModuleState

end ScopedStyles
