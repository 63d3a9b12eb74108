import ScopedStyles.Proofs.Graph.Results
import ScopedStyles.Proofs.Module.Waiting

/-!
Finished files have nothing left to settle. An alias of an imported value ceases to wait as soon as
it has a text, unless a literal of the same name keeps it waiting; so when a file can be closed, its
owners are released, its literals are settled, and its aliases have their texts. Names that are
promised to other files have entries from the time they are declared, and no entry is lost.
-/

namespace ScopedStyles

open Compiling

namespace ModuleState

variable {context : FileContext} {state later : ModuleState} {kept : String → Prop} {name : String}

/-! ## Nothing is left to settle -/

/-- The alias of an imported value that has a text waits only as a literal. -/
def AliasesRest (state : ModuleState) : Prop :=
  ∀ name ∈ state.valueAliases, state.symbols.contains name → name ∈ state.pending →
    state.literals.contains name

theorem Change.aliasesRest (change : Change kept state later) (rest : state.AliasesRest) :
    later.AliasesRest := by
  intro name isAlias known waits
  rw [change.sameDeclarations.valueAliases] at isAlias
  cases change with
  | settled blocked =>
    rcases mem_pending_settleLiterals waits with ⟨earlier, absent⟩ | postponed
    · rw [OrderedMap.contains, get?_symbols_settleLiterals absent] at known
      exact absurd (rest name isAlias known earlier) absent
    · exact postponed
  | @imported reference listed entry =>
    obtain ⟨earlier, other⟩ := mem_pending_recordImported.mp waits
    have different : name ≠ reference.localName := by
      rintro rfl
      exact other ⟨rfl, isAlias⟩
    rw [OrderedMap.contains, get?_symbols_recordImported, if_neg different] at known
    rw [literals_recordImported]
    exact rest name isAlias known earlier
  | composed => exact rest name isAlias known waits
  | released => exact rest name isAlias known (mem_release.mp waits).1

theorem Develops.aliasesRest (develops : Develops kept state later) (rest : state.AliasesRest) :
    later.AliasesRest := by
  induction develops with
  | refl => exact rest
  | tail _ change earlier => exact change.aliasesRest earlier

theorem Complete.literals_eq_empty (complete : state.Complete) : state.literals = .empty := by
  rcases literals : state.literals with ⟨_ | ⟨entry, entries⟩⟩
  · rfl
  · refine absurd (OrderedMap.contains_of_mem_entries ?_) (complete.settled entry.1)
    rw [literals]
    exact List.mem_cons_self

/-- Whatever waits has a cause, and a state that can be closed has none. -/
theorem Complete.pending_eq_nil (complete : state.Complete) (causes : state.WaitsForCause)
    (imported : ∀ name ∈ state.valueAliases, name ∈ state.imports.map ImportReference.localName)
    (rest : state.AliasesRest) : state.pending = [] := by
  refine List.eq_nil_iff_forall_not_mem.mpr fun name waits => ?_
  rcases causes name waits with owns | isLiteral | isAlias
  · exact complete.released name owns waits
  · exact complete.settled name isLiteral
  · obtain ⟨reference, listed, rfl⟩ := List.mem_map.mp (imported name isAlias)
    have known := complete.imported reference listed
    exact complete.settled _ (rest _ isAlias known waits)

/-! ## Promised names have entries -/

theorem contains_table_replay {records : List Record} (known : state.table.contains name) :
    (records.foldl (Record.declare context) state).table.contains name :=
  List.foldlRecOn (motive := fun state : ModuleState => state.table.contains name) records _ known
    fun _ known _ _ => contains_table_declare known

/-- Names that a file declares for itself, and names that it makes stand for texts, have entries
once they are recorded. -/
theorem contains_table_of_mem {records : List Record} {record : Record} (member : record ∈ records)
    (declares : record.scopes? = some name ∨ record.writes? = some name) :
    (records.foldl (Record.declare context) state).table.contains name := by
  obtain ⟨before, after, rfl⟩ := List.append_of_mem member
  rw [List.foldl_append, List.foldl_cons]
  refine contains_table_replay ?_
  generalize before.foldl (Record.declare context) state = state
  cases record with
  | declared | keyframes =>
    rcases declares with scopes | writes
    · cases scopes
      exact TokenTable.contains_declareLocal_self ..
    · cases writes
  | literal | importedValue =>
    rcases declares with scopes | writes
    · cases scopes
    · cases writes
      exact TokenTable.contains_put_self ..
  | passed | imported | composition | malformed =>
    rcases declares with scopes | writes
    · cases scopes
    · cases writes

end ModuleState

/-! ## Finished files -/

namespace CompiledModule

/-- Nothing is left unsettled in a module: no name waits, no literal is left, and every name that
its text promises, as the owner of a composition, as a value, as an export or as the alias of an
imported value, has an entry. So its table answers as its state does. -/
structure Settled (workspace : Workspace) (path : Path) (source : String)
    (compiled : CompiledModule) : Prop where
  pending : compiled.state.pending = []
  literals : compiled.state.literals = .empty
  owners : ∀ owner content,
    .composition owner content ∈
        Collect.sheetRecords (workspace.context path source) (parse source) →
      compiled.table.contains owner
  ownersOfState : ∀ owner, compiled.state.compositions.contains owner →
    compiled.table.contains owner
  texts : ∀ record ∈ Collect.sheetRecords (workspace.context path source) (parse source),
    ∀ name, record.writes? = some name → compiled.table.contains name
  aliases : ∀ name ∈ compiled.state.valueAliases, compiled.table.contains name
  lookup : ∀ name, compiled.state.lookup name = compiled.table.lookup name

variable {workspace : Workspace} {path : Path} {source : String} {compiled : CompiledModule}

theorem ResultOf.developsDeclared (result : compiled.ResultOf workspace path source) :
    (Collect.declaredState (workspace.context path source) (parse source)).Develops
      (fun _ => False) compiled.state := by
  obtain ⟨sheet, collects, _⟩ := result.closed
  have settled := (Collect.run_of_ok (workspace.context path source) collects).2
  have develops := result.develops
  rw [Workspace.collection, settled] at develops
  exact (Relation.ReflTransGen.single (.settled _)).trans develops

theorem ResultOf.settled (result : compiled.ResultOf workspace path source) :
    compiled.Settled workspace path source := by
  have develops := result.developsDeclared
  have same := develops.sameDeclarations
  have coherent : (Collect.declaredState (workspace.context path source) (parse source)).Coherent :=
    Collect.coherent_declaredState
  have pending : compiled.state.pending = [] := by
    refine result.complete.pending_eq_nil (develops.waitsForCause coherent.waitsForCause) ?_ ?_
    · rw [same.valueAliases, same.imports]
      exact coherent.aliasesImported
    · refine develops.aliasesRest fun name _ known => ?_
      rw [Collect.symbols_declaredState] at known
      cases known
  refine ⟨pending, result.complete.literals_eq_empty, ?_, ?_, ?_, ?_, ?_⟩
  · intro owner content member
    exact develops.contains_table (ModuleState.contains_table_of_mem
      (Collect.ownersDeclared_nodes _ _ owner content member) (.inl rfl))
  · intro owner owns
    rw [same.compositions] at owns
    exact develops.contains_table (ModuleState.contains_table_of_mem
      (Collect.declared_of_contains_compositions owns) (.inl rfl))
  · intro record member name writes
    exact develops.contains_table (ModuleState.contains_table_of_mem member (.inr writes))
  · intro name isAlias
    rw [same.valueAliases] at isAlias
    exact develops.contains_table (Collect.textsWait_declaredState name (.inr isAlias)).2
  · intro name
    rw [ModuleState.lookup, ModuleState.isSettled, pending]
    rfl

end CompiledModule

/-- The ways in which a text is compiled as the content of a file: on its own, or while other files
ask for it. -/
inductive Compilation.Processes (workspace : Workspace) (path : Path) (source : String) :
    Compiling CompiledModule → Prop
  | outermost : Processes workspace path source (Graph.compile workspace path source)
  | nested (depth : Nat) : Processes workspace path source
      (compile workspace (Resolution.resolve (calls workspace depth)) path source)

theorem Compilation.Processes.compiles {workspace : Workspace} {path : Path} {source : String}
    {processing : Compiling CompiledModule} {graph : Graph}
    (processes : Processes workspace path source processing) (filed : graph.Filed) :
    Compiles (.filing workspace) graph path source processing := by
  cases processes with
  | outermost => exact Graph.compiles_filing filed
  | nested depth =>
    exact compiles_nested (Contract.meets_filing workspace depth)
      fun _ _ => Contract.mayStart_filing (filed.opening workspace path source)

namespace Graph

/-- Whenever a text has been compiled, in any graph, nothing is left unsettled in its module, nor in
the module of any other file that was finished on the way. -/
theorem finished_modules_are_settled {workspace : Workspace} {path : Path} {source : String}
    {graph after : Graph} {processing : Compiling CompiledModule} {compiled : CompiledModule}
    (processes : Compilation.Processes workspace path source processing) (filed : graph.Filed)
    (succeeds : outcome processing graph = (.ok compiled, after)) :
    compiled.Settled workspace path source ∧
      after.slots.get? (.file path) = some (.finished compiled) ∧ after.Filed ∧
      ∀ other, after.slots.get? (.file other.path) = some (.finished other) →
        other.path ≠ path → graph.slots.get? (.file other.path) = none →
        ∃ text, workspace.files.read other.path = .ok text ∧
          other.Settled workspace other.path text := by
  obtain ⟨result, isSlot, filed, others⟩ := resultOf_compiles (processes.compiles filed) succeeds
  refine ⟨result.settled, isSlot, filed, ?_⟩
  intro other found different absent
  obtain ⟨text, readable, result⟩ := others other found different absent
  exact ⟨text, readable, result.settled⟩

/-- Values of one file, for another file that imports them, one of them under the name of a class of
its own that has compositions. -/
def palette : Workspace where
  options := { Options.standard with namePattern := .template "[local]" }
  files := .ofList .top [("/colors.css", "@value red: #f00;@value dark: red 50%;")]
  resolver := .nearest

def paletteText : String :=
  "@value red, dark as deep from './colors.css';@value edge: 1px deep;:export\x7bshade:edge\x7d" ++
    ".red\x7bcomposes:base\x7d.base\x7b\x7d"

theorem palette_is_settled :
    ∃ compiled after, Compilation.Processes palette (.parse "/x.css") paletteText
        (compile palette (.parse "/x.css") paletteText) ∧ Graph.empty.Filed ∧
      outcome (compile palette (.parse "/x.css") paletteText) .empty = (.ok compiled, after) ∧
      compiled.Settled palette (.parse "/x.css") paletteText ∧
      compiled.table.toList.map (fun entry => (entry.1, entry.2.joined)) =
        [("red", "#f00"), ("deep", "#f00 50%"), ("edge", "1px #f00 50%"),
          ("shade", "1px #f00 50%"), ("base", "base")] := by
  have exports : ((outcome (compile palette (.parse "/x.css") paletteText)
      .empty).1.toOption.map fun compiled =>
        compiled.table.toList.map (fun entry => (entry.1, entry.2.joined))) =
        some [("red", "#f00"), ("deep", "#f00 50%"), ("edge", "1px #f00 50%"),
          ("shade", "1px #f00 50%"), ("base", "base")] := by
    decide +kernel
  cases succeeds : outcome (compile palette (.parse "/x.css") paletteText) .empty with
  | mk result after =>
    rw [succeeds] at exports
    cases result with
    | error halt => cases exports
    | ok compiled =>
      exact ⟨compiled, after, .outermost, .empty, rfl,
        (finished_modules_are_settled .outermost .empty succeeds).1, Option.some.inj exports⟩

end Graph

end ScopedStyles
