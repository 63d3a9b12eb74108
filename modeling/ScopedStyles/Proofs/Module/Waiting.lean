import ScopedStyles.Proofs.Module.Declarations
import ScopedStyles.Proofs.Module.Symbols

/-!
Names whose text is still to be written: literals, and the aliases of imported values. Each of them
has an entry and waits from the time it is declared. When every name is introduced in one way, no
literal is the alias of an import, and neither owns compositions.
-/

namespace ScopedStyles

/-! ## Entries stay -/

namespace TokenTable

variable {table : TokenTable} {name : String}

theorem contains_put (known : table.contains name) (other : String) (entry : TokenEntry) :
    (table.put other entry).contains name := by
  change (table.entries.insert other entry).contains name
  rw [OrderedMap.contains_insert, Bool.or_eq_true]
  exact .inr known

theorem contains_put_self (table : TokenTable) (name : String) (entry : TokenEntry) :
    (table.put name entry).contains name := by
  change (table.entries.insert name entry).contains name
  simp [OrderedMap.contains_insert]

theorem contains_declareLocal (known : table.contains name) (other generated : String) :
    (table.declareLocal other generated).contains name := by
  unfold declareLocal
  split
  · split <;> exact contains_put known other _
  · exact contains_put known other _

theorem contains_declareLocal_self (table : TokenTable) (name generated : String) :
    (table.declareLocal name generated).contains name := by
  unfold declareLocal
  split
  · split <;> exact contains_put_self table name _
  · exact contains_put_self table name _

theorem contains_declareGlobal (known : table.contains name) (other : String) :
    (table.declareGlobal other).contains name := by
  unfold declareGlobal
  split
  · exact known
  · exact contains_put known other _

end TokenTable

namespace ModuleState

variable {context : FileContext} {state later : ModuleState} {kept : String → Prop} {name : String}
  {record : Record} {records : List Record}

theorem contains_table_settle (known : state.table.contains name) (other : String)
    (literal : Literal) : (state.settle other literal).table.contains name := by
  rw [TokenTable.contains, OrderedMap.contains, ← TokenTable.get?, get?_table_settle]
  split
  · rfl
  · exact known

theorem Change.contains_table (change : Change kept state later)
    (known : state.table.contains name) : later.table.contains name := by
  cases change with
  | settled blocked =>
    refine settleLiterals_induction (motive := fun later => later.table.contains name) known ?_ ?_
      blocked
    · exact fun _ _ _ _ known => known
    · exact fun other literal _ _ known => contains_table_settle known other literal
  | imported =>
    rw [TokenTable.contains, OrderedMap.contains, ← TokenTable.get?, get?_table_recordImported]
    split
    · rfl
    · exact known
  | composed => exact TokenTable.contains_put known _ _
  | released => exact known

theorem Develops.contains_table (develops : Develops kept state later)
    (known : state.table.contains name) : later.table.contains name := by
  induction develops with
  | refl => exact known
  | tail _ change earlier => exact change.contains_table earlier

/-! ## Names that await a text -/

/-- A text will be written to a name: it is a literal, or the alias of an imported value. -/
def AwaitsText (state : ModuleState) (name : String) : Prop :=
  state.literals.contains name ∨ name ∈ state.valueAliases

theorem Unwritten.not_awaitsText (unwritten : state.Unwritten name) : ¬ state.AwaitsText name := by
  rintro (isLiteral | isAlias)
  · exact unwritten.noLiteral isLiteral
  · exact unwritten.noAlias isAlias

theorem Develops.awaitsText (develops : Develops kept state later)
    (awaits : later.AwaitsText name) : state.AwaitsText name := by
  rcases awaits with isLiteral | isAlias
  · exact .inl (develops.contains_literals isLiteral)
  · exact .inr (develops.sameDeclarations.valueAliases ▸ isAlias)

/-- Whatever awaits a text has an entry, and waits. -/
def TextsWait (state : ModuleState) : Prop :=
  ∀ name, state.AwaitsText name → name ∈ state.pending ∧ state.table.contains name

theorem mem_pending_declare (waits : name ∈ state.pending) :
    name ∈ (record.declare context state).pending := by
  cases record with
  | literal | importedValue | composition => exact mem_addNew.mpr (.inr waits)
  | declared | passed | keyframes | imported | malformed => exact waits

theorem contains_table_declare (known : state.table.contains name) :
    (record.declare context state).table.contains name := by
  cases record with
  | declared | keyframes => exact TokenTable.contains_declareLocal known _ _
  | passed => exact TokenTable.contains_declareGlobal known _
  | literal | importedValue => exact TokenTable.contains_put known _ _
  | imported | composition | malformed => exact known

theorem writes?_of_awaitsText (awaits : (record.declare context state).AwaitsText name) :
    state.AwaitsText name ∨ record.writes? = some name := by
  cases record with
  | literal other content =>
    rcases awaits with isLiteral | isAlias
    · change (state.literals.insert other content).contains name at isLiteral
      rw [OrderedMap.contains_insert, Bool.or_eq_true] at isLiteral
      rcases isLiteral with equal | earlier
      · exact .inr (congrArg some (of_decide_eq_true equal).symm)
      · exact .inl (.inl earlier)
    · exact .inl (.inr isAlias)
  | importedValue value source location =>
    rcases awaits with isLiteral | isAlias
    · exact .inl (.inl isLiteral)
    · rcases mem_addNew.mp isAlias with equal | earlier
      · exact .inr (congrArg some equal.symm)
      · exact .inl (.inr earlier)
  | declared | passed | keyframes | imported | composition | malformed => exact .inl awaits

theorem TextsWait.declare (wait : state.TextsWait) : (record.declare context state).TextsWait := by
  intro name awaits
  rcases writes?_of_awaitsText awaits with earlier | writes
  · exact ⟨mem_pending_declare (wait name earlier).1, contains_table_declare (wait name earlier).2⟩
  · cases record with
    | literal | importedValue =>
      cases writes
      exact ⟨mem_addNew.mpr (.inl rfl), TokenTable.contains_put_self _ _ _⟩
    | declared | passed | keyframes | imported | composition | malformed => cases writes

theorem TextsWait.replay (wait : state.TextsWait) :
    (records.foldl (Record.declare context) state).TextsWait :=
  List.foldlRecOn (motive := TextsWait) records _ wait fun _ wait _ _ => wait.declare

/-! ## Literals -/

theorem Change.nodup_literals (change : Change kept state later)
    (distinct : state.literals.keys.Nodup) : later.literals.keys.Nodup := by
  cases change with
  | settled blocked =>
    refine settleLiterals_induction (motive := fun later => later.literals.keys.Nodup) .nil ?_ ?_
      blocked
    · exact fun name literal _ _ distinct => OrderedMap.nodup_keys_insert distinct name literal
    · intro name literal _ later distinct
      rw [literals_settle]
      exact distinct
  | imported =>
    rw [literals_recordImported]
    exact distinct
  | composed => exact distinct
  | released => exact distinct

theorem Develops.nodup_literals (develops : Develops kept state later)
    (distinct : state.literals.keys.Nodup) : later.literals.keys.Nodup := by
  induction develops with
  | refl => exact distinct
  | tail _ change earlier => exact change.nodup_literals earlier

theorem nodup_literals_replay (distinct : state.literals.keys.Nodup) :
    (records.foldl (Record.declare context) state).literals.keys.Nodup := by
  refine List.foldlRecOn (motive := fun state : ModuleState => state.literals.keys.Nodup) records _
    distinct fun state distinct record _ => ?_
  cases record with
  | literal name content => exact OrderedMap.nodup_keys_insert distinct name content
  | declared | passed | keyframes | imported | importedValue | composition | malformed =>
    exact distinct

theorem waits_settleEach {literals : List (String × Literal)} {blocked : List String}
    (distinct : (literals.map Prod.fst).Nodup)
    (fresh : ∀ name ∈ literals.map Prod.fst, ¬ state.literals.contains name)
    (wait : ∀ name, state.literals.contains name → name ∈ state.pending)
    (remains : (settleEach blocked literals state).literals.contains name) :
    name ∈ (settleEach blocked literals state).pending := by
  induction literals generalizing blocked state with
  | nil => exact wait name remains
  | cons first rest induction =>
    obtain ⟨other, literal⟩ := first
    obtain ⟨absent, distinct⟩ := List.nodup_cons.mp distinct
    unfold settleEach at remains ⊢
    split at remains
    · rename_i blocks
      rw [if_pos blocks]
      refine induction distinct ?_ ?_ remains
      · intro later member known
        rcases literals_contains_postpone.mp known with equal | known
        · exact absent (equal ▸ member)
        · exact fresh later (List.mem_cons_of_mem _ member) known
      · intro later known
        refine mem_await.mpr ?_
        rcases literals_contains_postpone.mp known with equal | known
        · exact .inl equal
        · exact .inr (wait later known)
    · rename_i free
      rw [if_neg free]
      refine induction distinct ?_ ?_ remains
      · intro later member
        rw [literals_settle]
        exact fresh later (List.mem_cons_of_mem _ member)
      · intro later known
        rw [literals_settle] at known
        refine mem_pending_settle.mpr ⟨wait later known, ?_⟩
        rintro rfl
        exact fresh later List.mem_cons_self known

theorem waits_settleLiterals (distinct : state.literals.keys.Nodup) {blocked : List String}
    (remains : (state.settleLiterals blocked).literals.contains name) :
    name ∈ (state.settleLiterals blocked).pending := by
  refine waits_settleEach ?_ (fun _ _ => nofun) (fun _ => nofun) remains
  have order := List.filter_append_perm (fun entry : String × Literal => entry.2.isValue)
    state.literals.entries
  exact (order.map Prod.fst).nodup_iff.mpr distinct

end ModuleState

/-! ## Records of a sheet -/

namespace Collect

variable {context : FileContext} {sheet : Stylesheet} {name : String}

theorem textsWait_declaredState : (declaredState context sheet).TextsWait := by
  refine ModuleState.TextsWait.replay ?_
  rintro name (isLiteral | isAlias)
  · cases isLiteral
  · cases isAlias

theorem nodup_literals_declaredState : (declaredState context sheet).literals.keys.Nodup :=
  ModuleState.nodup_literals_replay .nil

theorem symbols_declaredState : (declaredState context sheet).symbols = .empty := by
  suffices general : ∀ (records : List Record) (state : ModuleState),
      (records.foldl (Record.declare context) state).symbols = state.symbols from
    general _ .empty
  intro records
  induction records with
  | nil => exact fun _ => rfl
  | cons record rest induction =>
    intro state
    rw [List.foldl_cons, induction]
    cases record <;> rfl

theorem mem_literals_replay {records : List Record} {state : ModuleState}
    {entry : String × Literal}
    (member : entry ∈ (records.foldl (Record.declare context) state).literals.entries) :
    entry ∈ state.literals.entries ∨ .literal entry.1 entry.2 ∈ records := by
  induction records generalizing state with
  | nil => exact .inl member
  | cons record rest induction =>
    rcases induction member with earlier | later
    · cases record with
      | literal other content =>
        rcases OrderedMap.mem_entries_insert earlier with rfl | older
        · exact .inr List.mem_cons_self
        · exact .inl older
      | declared | passed | keyframes | imported | importedValue | composition | malformed =>
        exact .inl earlier
    · exact .inr (List.mem_cons_of_mem _ later)

theorem contains_literals_replay {records : List Record} {state : ModuleState}
    (known : (records.foldl (Record.declare context) state).literals.contains name) :
    state.literals.contains name ∨ ∃ content, .literal name content ∈ records := by
  rcases (OrderedMap.contains_iff_get? _ _).mp known with ⟨content, found⟩
  rcases mem_literals_replay (OrderedMap.mem_entries_of_get? found) with earlier | recorded
  · exact .inl (OrderedMap.contains_of_mem_entries earlier)
  · exact .inr ⟨content, recorded⟩

variable (oneWay : Record.OneWay (sheetRecords context sheet))

include oneWay

theorem not_literal_of_import {reference : ImportReference}
    (listed : reference ∈ (declaredState context sheet).imports) :
    ¬ (declaredState context sheet).literals.contains reference.localName := by
  intro known
  rcases contains_literals_replay known with none | ⟨content, isLiteral⟩
  · cases none
  have isAlias : reference.localName ∈
      (declaredState context sheet).imports.map ImportReference.localName :=
    List.mem_map_of_mem listed
  rw [declaredState, ModuleState.map_localName_replay] at isAlias
  rcases List.mem_append.mp isAlias with none | later
  · cases none
  rcases List.mem_filterMap.mp later with ⟨record, member, aliased⟩
  have different : Record.literal reference.localName content ≠ record := by
    rintro rfl
    cases aliased
  have agrees := oneWay.forall isLiteral member different
  have isClass := (agrees (by simp [Record.introduced?])
    (Record.introduced?_of_alias? aliased).1.symm).1
  cases isClass

/-- A name that awaits a text owns no compositions, and stands for text as long as it has no
other entry. -/
theorem namesText_of_awaitsText (awaits : (declaredState context sheet).AwaitsText name) :
    (declaredState context sheet).NamesText name ∧
      ¬ (declaredState context sheet).compositions.contains name := by
  constructor
  · rcases namesClass_or_namesText oneWay name with namesClass | namesText
    · exact absurd awaits namesClass.toUnwritten.not_awaitsText
    · exact namesText
  · intro owns
    have namesClass := (namesClass_of_contains_compositions oneWay owns).1
    exact namesClass.toUnwritten.not_awaitsText awaits

end Collect

end ScopedStyles
