import ScopedStyles.Proofs.Foundation.Alike
import ScopedStyles.Proofs.Module.Delaying
import ScopedStyles.Proofs.Module.Records

/-!
Two states of one file. A matching says which tables and which texts may stand for each other; all
that decides what happens next is the same in both states. Everything that can happen to a state
keeps such states as they are to each other.
-/

namespace ScopedStyles

structure Matching where
  tables : TokenTable → TokenTable → Prop
  /-- Whether the literal with this name may have another text. -/
  writes : String → Prop
  /-- Whether the symbol with this name may have another text. -/
  borrows : String → Prop
  /-- Names behind an alias. -/
  aliases : String → List String → List String → Prop
  /-- Scoped names of keyframes. -/
  keyframes : String → String → String → Prop

/-- The same names wait, and what they wait for is the same; what is known matches. -/
structure ModuleState.Matches (matching : Matching) (state other : ModuleState) : Prop where
  table : matching.tables state.table other.table
  compositions : other.compositions = state.compositions
  pending : other.pending = state.pending
  imports : other.imports = state.imports
  valueAliases : other.valueAliases = state.valueAliases
  literals : other.literals = state.literals
  symbols : state.symbols.Alike
    (fun name text otherText => otherText = text ∨ matching.borrows name) other.symbols
  classAliases : state.classAliases.Alike matching.aliases other.classAliases
  keyframes : state.keyframes.Alike matching.keyframes other.keyframes

/-- A literal that mentions a symbol which may have another text is among those that may. -/
def Matching.Admits (matching : Matching) (name : String) (literal : Literal) : Prop :=
  ∀ mentioned ∈ mentionedNames literal.raw, matching.borrows mentioned →
    matching.writes name ∧ (literal.isValue → matching.borrows name)

/-- Tables that match still do once a literal is written to both. -/
def Matching.KeepsLiterals (matching : Matching) : Prop :=
  ∀ {table other : TokenTable} {name text otherText : String}, matching.tables table other →
    (otherText = text ∨ matching.writes name) →
      matching.tables (table.declareLiteral name text) (other.declareLiteral name otherText)

/-- Tables that match still do once a name is declared in both, by two contexts. -/
structure Matching.KeepsNames (matching : Matching) (context other : FileContext) : Prop where
  declareLocal : ∀ {table otherTable : TokenTable} (name : String),
    matching.tables table otherTable →
      matching.tables (table.declareLocal name (context.scopedName name))
        (otherTable.declareLocal name (other.scopedName name))
  declareGlobal : ∀ {table otherTable : TokenTable} (name : String),
    matching.tables table otherTable →
      matching.tables (table.declareGlobal name) (otherTable.declareGlobal name)
  keyframes : ∀ name, matching.keyframes name (context.scopedName name) (other.scopedName name)

/-- Texts in which no mentioned symbol may differ are substituted alike. -/
theorem substituteSymbols_eq {differs : String → Prop} {symbols others : OrderedMap String String}
    {text : String}
    (alike : symbols.Alike (fun name text otherText => otherText = text ∨ differs name) others)
    (own : ∀ mentioned ∈ mentionedNames text, ¬ differs mentioned) :
    substituteSymbols others text = substituteSymbols symbols text := by
  refine renameMentions_congr fun mentioned member => ?_
  have found := alike.get? mentioned
  generalize symbols.get? mentioned = symbol at found ⊢
  generalize others.get? mentioned = otherSymbol at found ⊢
  cases found with
  | none => rfl
  | some same => rw [same.resolve_right (own mentioned member)]

namespace ModuleState.Matches

variable {matching : Matching} {state other : ModuleState} {name : String}

theorem empty (tables : matching.tables .empty .empty) :
    ModuleState.empty.Matches matching .empty :=
  ⟨tables, rfl, rfl, rfl, rfl, rfl, .empty, .empty, .empty⟩

theorem await (match_ : state.Matches matching other) (name : String) :
    (state.await name).Matches matching (other.await name) :=
  { match_ with pending := by rw [ModuleState.await, match_.pending, ModuleState.await] }

theorem release (match_ : state.Matches matching other) (name : String) :
    (state.release name).Matches matching (other.release name) :=
  { match_ with pending := by rw [ModuleState.release, match_.pending, ModuleState.release] }

theorem addSymbol (match_ : state.Matches matching other) {text otherText : String}
    (same : otherText = text ∨ matching.borrows name) :
    (state.addSymbol name text).Matches matching (other.addSymbol name otherText) :=
  { match_ with symbols := match_.symbols.insert same }

theorem recordImport (match_ : state.Matches matching other) (reference : ImportReference) :
    (state.recordImport reference).Matches matching (other.recordImport reference) :=
  { match_ with
    imports := by rw [ModuleState.recordImport, match_.imports, ModuleState.recordImport] }

theorem recordComposition (match_ : state.Matches matching other) (composition : Composition)
    (owner : String) :
    (state.recordComposition composition owner).Matches matching
      (other.recordComposition composition owner) := by
  refine await ?_ owner
  refine { match_ with compositions := ?_ }
  change other.compositions.insert owner (other.compositionsOf owner ++ [composition]) =
    state.compositions.insert owner (state.compositionsOf owner ++ [composition])
  rw [ModuleState.compositionsOf, match_.compositions, ModuleState.compositionsOf]

section

variable (keeps : matching.KeepsLiterals)

include keeps

theorem declareLiteral (match_ : state.Matches matching other) {text otherText : String}
    (same : otherText = text ∨ matching.writes name) :
    (state.declareLiteral name text).Matches matching (other.declareLiteral name otherText) :=
  { match_ with table := keeps match_.table same }

/-! ### Settling -/

omit keeps in
theorem postpone (match_ : state.Matches matching other) (name : String) (literal : Literal) :
    (state.postpone name literal).Matches matching (other.postpone name literal) :=
  { match_.await name with
    literals := by
      change other.literals.insert name literal = state.literals.insert name literal
      rw [match_.literals] }

theorem settle (match_ : state.Matches matching other) {literal : Literal}
    (admits : matching.Admits name literal) :
    (state.settle name literal).Matches matching (other.settle name literal) := by
  -- The text differs only if the literal mentions a symbol that does.
  have same : substituteSymbols other.symbols literal.raw =
        substituteSymbols state.symbols literal.raw ∨
      matching.writes name ∧ (literal.isValue → matching.borrows name) := by
    by_cases own : ∀ mentioned ∈ mentionedNames literal.raw, ¬ matching.borrows mentioned
    · exact .inl (substituteSymbols_eq match_.symbols own)
    · simp only [not_forall, not_not] at own
      obtain ⟨mentioned, member, borrows⟩ := own
      exact .inr (admits mentioned member borrows)
  unfold ModuleState.settle
  dsimp only
  split
  · rename_i isValue
    have known := match_.addSymbol (same.imp_right fun varies => varies.2 isValue)
    exact (known.declareLiteral keeps (same.imp_right And.left)).release name
  · exact (match_.declareLiteral keeps (same.imp_right And.left)).release name

theorem settleEach {literals : List (String × Literal)}
    (admits : ∀ entry ∈ literals, matching.Admits entry.1 entry.2) (blocked : List String)
    (match_ : state.Matches matching other) :
    (settleEach blocked literals state).Matches matching (settleEach blocked literals other) := by
  induction literals generalizing blocked state other with
  | nil => exact match_
  | cons first rest induction =>
    obtain ⟨name, literal⟩ := first
    have admitsRest : ∀ entry ∈ rest, matching.Admits entry.1 entry.2 :=
      fun entry member => admits entry (List.mem_cons_of_mem _ member)
    rw [ModuleState.settleEach, ModuleState.settleEach]
    split
    · exact induction admitsRest _ (match_.postpone name literal)
    · exact induction admitsRest _
        (match_.settle keeps (admits (name, literal) List.mem_cons_self))

theorem settleLiterals (match_ : state.Matches matching other)
    (admits : ∀ entry ∈ state.literals.entries, matching.Admits entry.1 entry.2)
    (blocked : List String) :
    (state.settleLiterals blocked).Matches matching (other.settleLiterals blocked) := by
  unfold ModuleState.settleLiterals
  rw [match_.literals]
  refine settleEach keeps
    (fun entry member => admits entry (mem_settlementOrder.mp member)) blocked ?_
  exact { match_ with literals := rfl }

/-! ### Imports -/

theorem recordImported (match_ : state.Matches matching other) {localName : String}
    {entry otherEntry : TokenEntry} (isLiteral : otherEntry.isLiteral = entry.isLiteral)
    (same : otherEntry.joined = entry.joined ∨ matching.borrows localName)
    (names : matching.aliases localName entry.names otherEntry.names)
    (aliases : localName ∈ state.valueAliases → matching.borrows localName →
      matching.writes localName) :
    (state.recordImported localName entry).Matches matching
      (other.recordImported localName otherEntry) := by
  have known := match_.addSymbol same
  unfold ModuleState.recordImported
  dsimp only
  have sameAlias : (other.addSymbol localName otherEntry.joined).valueAliases.contains localName =
      (state.addSymbol localName entry.joined).valueAliases.contains localName := by
    rw [known.valueAliases]
  rw [sameAlias, isLiteral]
  split
  · rename_i isAlias
    have listed : localName ∈ state.valueAliases := List.contains_iff_mem.mp isAlias
    exact (known.declareLiteral keeps (same.imp_right (aliases listed))).release localName
  · split
    · exact known
    · exact { known with classAliases := known.classAliases.insert names }

/-! ### Declarations -/

theorem recordLiteral (match_ : state.Matches matching other) (name : String)
    (literal : Literal) :
    (state.recordLiteral name literal).Matches matching (other.recordLiteral name literal) :=
  have waiting : ((state.declareLiteral name literal.raw).await name).Matches matching
      ((other.declareLiteral name literal.raw).await name) :=
    (match_.declareLiteral keeps (.inl rfl)).await name
  { waiting with
    literals := by
      change other.literals.insert name literal = state.literals.insert name literal
      rw [match_.literals] }

theorem recordValueImport (match_ : state.Matches matching other)
    (reference : ImportReference) :
    (state.recordValueImport reference).Matches matching (other.recordValueImport reference) := by
  have declared : (state.declareLiteral reference.localName reference.localName).Matches matching
      (other.declareLiteral reference.localName reference.localName) :=
    match_.declareLiteral keeps (.inl rfl)
  refine recordImport ?_ reference
  refine { declared.await reference.localName with valueAliases := ?_ }
  change addNew reference.localName other.valueAliases =
    addNew reference.localName state.valueAliases
  rw [match_.valueAliases]

variable {context otherContext : FileContext} (names : matching.KeepsNames context otherContext)

include names

theorem declare (match_ : state.Matches matching other) (record : Record) :
    (record.declare context state).Matches matching (record.declare otherContext other) := by
  cases record with
  | declared name => exact { match_ with table := names.declareLocal name match_.table }
  | passed name => exact { match_ with table := names.declareGlobal name match_.table }
  | keyframes name =>
    exact { match_ with
      table := names.declareLocal name match_.table
      keyframes := match_.keyframes.insert (names.keyframes name) }
  | imported reference => exact match_.recordImport reference
  | literal name content => exact match_.recordLiteral keeps name content
  | importedValue name source location =>
    have specifier : source.specifierIn other = source.specifierIn state := by
      cases source with
      | path => rfl
      | value => rw [ValueSource.specifierIn, match_.literals, ValueSource.specifierIn]
    rw [Record.declare, Record.declare, specifier]
    exact match_.recordValueImport keeps _
  | composition owner content => exact match_.recordComposition content owner
  | malformed => exact match_

theorem replay (match_ : state.Matches matching other) (records : List Record) :
    (records.foldl (Record.declare context) state).Matches matching
      (records.foldl (Record.declare otherContext) other) := by
  induction records generalizing state other with
  | nil => exact match_
  | cons record rest induction => exact induction (match_.declare keeps names record)

end

end ModuleState.Matches

end ScopedStyles
