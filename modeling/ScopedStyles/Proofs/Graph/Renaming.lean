import ScopedStyles.Proofs.Graph.Comparison
import ScopedStyles.Proofs.Module.Renaming

/-!
Processing with other names. A project is processed twice, with two patterns that scoped names are
made after. Both runs fail alike, or they compile the same files in the same order to tables with
the same keys and to sheets of the same shape; what differs are scoped names, the names composed
into owners, and texts in which the names of imported classes stand.
-/

namespace ScopedStyles

open Compiling

/-- The same files, with scoped names made after another pattern. -/
def Workspace.withPattern (workspace : Workspace) (pattern : NamePattern) : Workspace :=
  { workspace with options := { workspace.options with namePattern := pattern } }

/-! ## Collecting a file -/

namespace Collect

/-- Collections of one file that differ in scoped names. -/
def twice (context other : FileContext) : Pairing Failure Collection where
  alike collection otherCollection :=
    collection.state.Renamed (.collecting context other) otherCollection.state ∧
      otherCollection.malformed = collection.malformed
  ended _ _ := True
  excused _ := False
  ended_of_alike _ := trivial

theorem counterparts_twice (workspace : Workspace) (pattern : NamePattern) (path : Path)
    (source : String) :
    (workspace.context path source).Counterparts
      (twice (workspace.context path source) ((workspace.withPattern pattern).context path source))
      ((workspace.withPattern pattern).context path source) where
  path := rfl
  exportGlobals := id
  mode := .refl _
  checks := id
  excuses isPure otherMode := absurd isPure otherMode
  literals alike := alike.1.literals
  replays alike records := by
    refine ⟨alike.1.replay records, ?_⟩
    rw [Collection.replay, alike.2]
    rfl
  passes off on := absurd (off.symm.trans on) Bool.false_ne_true

end Collect

namespace Project

variable (project : Project)

/-! ## What may differ -/

/-- A scoped name is made for a name of a file, or names are composed into it. -/
def Scopes (path : Path) (name : String) : Prop :=
  (∃ entry, (name, entry) ∈ (project.declared path).table.toList ∧ entry.kind = .localName) ∨
    (project.declared path).compositions.contains name

mutual
/-- The text that a symbol of a file stands for may hold scoped names of other files: the symbol is
the alias of an imported class, or of a literal that holds such names, or it is a value that
mentions such a symbol. -/
inductive Borrows : Path → String → Prop where
  | named {path target : Path} {reference : ImportReference}
      (listed : reference ∈ (project.declared path).imports)
      (means : project.workspace.resolver.resolve project.workspace.files reference.specifier path =
        .ok target)
      (scopes : project.Scopes target reference.imported) : Borrows path reference.localName
  | text {path target : Path} {reference : ImportReference}
      (listed : reference ∈ (project.declared path).imports)
      (means : project.workspace.resolver.resolve project.workspace.files reference.specifier path =
        .ok target)
      (writes : Writes target reference.imported) : Borrows path reference.localName
  | value {path : Path} {name mentioned : String} {literal : Literal}
      (holds : (name, literal) ∈ (project.declared path).literals.entries)
      (isValue : literal.isValue) (mentions : mentioned ∈ mentionedNames literal.raw)
      (borrows : Borrows path mentioned) : Borrows path name

/-- The text of a literal that a file exports may hold scoped names of other files. -/
inductive Writes : Path → String → Prop where
  | literal {path : Path} {name mentioned : String} {literal : Literal}
      (holds : (name, literal) ∈ (project.declared path).literals.entries)
      (mentions : mentioned ∈ mentionedNames literal.raw) (borrows : Borrows path mentioned) :
      Writes path name
  | alias {path : Path} {name : String} (isAlias : name ∈ (project.declared path).valueAliases)
      (borrows : Borrows path name) : Writes path name
end

/-- What may differ in a file when scoped names are made after another pattern. -/
def variation (pattern : NamePattern) (path : Path) : Variation where
  first := (project.context path).scopedName
  second := ((project.workspace.withPattern pattern).context path (project.text path)).scopedName
  scopes := project.Scopes path
  owns name := (project.declared path).compositions.contains name
  writes := project.Writes path
  borrows := project.Borrows path

variable {project} {path : Path} {state : ModuleState} {pattern : NamePattern}

/-- A symbol that a literal of the file mentions may differ only if the literal may. -/
theorem Within.admits (within : project.Within path state) {entry : String × Literal}
    (member : entry ∈ state.literals.entries) :
    (project.variation pattern path).matching.Admits entry.1 entry.2 := by
  intro mentioned mentions borrows
  have holds := within.literals entry member
  exact ⟨.literal holds mentions borrows, fun isValue => .value holds isValue mentions borrows⟩

/-! ## States and modules -/

def RenamedState (project : Project) (pattern : NamePattern) (path : Path)
    (state other : ModuleState) : Prop :=
  state.Renamed (project.variation pattern path) other ∧ project.Within path state

theorem RenamedState.settleLiterals {other : ModuleState}
    (states : project.RenamedState pattern path state other) (blocked : List String) :
    project.RenamedState pattern path (state.settleLiterals blocked)
      (other.settleLiterals blocked) :=
  ⟨states.1.settleLiterals (fun _ => states.2.admits) blocked, states.2.settleLiterals blocked⟩

/-- Modules of a file in the two runs: what is known differs in names, and so do the sheets. -/
structure RenamedModule (project : Project) (pattern : NamePattern) (file : Path)
    (compiled other : CompiledModule) : Prop where
  path : compiled.path = file
  otherPath : other.path = file
  state : compiled.state.Renamed (project.variation pattern file) other.state
  sheet : Node.AlikeAll (.substituted (project.variation pattern file) compiled.state other.state)
    compiled.sheet other.sheet

/-! ## Laws -/

/-- What matches in two runs with names made after two patterns. -/
def comparePatterns (project : Project) (pattern : NamePattern) : Comparison where
  project
  second := project.workspace.withPattern pattern
  excuses := False
  states := project.RenamedState pattern
  modules path compiled other :=
    project.RenamedModule pattern path compiled other ∧ project.Within path compiled.state
  entries path := TokenEntry.Renamed (project.variation pattern path)
  extras _ _ _ := False
  named _ _ names others := others.2 = names.2

variable (project) (pattern : NamePattern)

theorem keepsStates_patterns :
    (project.comparePatterns pattern).likeness.KeepsStates project.workspace where
  pending states := states.1.pending
  compositions states := states.1.compositions
  imports states := states.1.imports
  symbols states name := states.1.symbols.contains_eq name
  table states name := .of_rel (OrderedMap.Alike.get? states.1.table name)
  classAliases {_ state other _ _ name} states _ _ := by
    have found := states.1.classAliases.get? name
    generalize state.classAliases.get? name = names at found ⊢
    generalize other.classAliases.get? name = otherNames at found ⊢
    cases found with
    | none => exact .none
    | some => exact .some rfl
  shadows {_ state other _ _ name _ _} states _ _ absent _ found := by
    have same : Option.Rel _ (state.table.get? name) (other.table.get? name) :=
      OrderedMap.Alike.get? states.1.table name
    rw [absent, found] at same
    cases same
  listed states := states.2.imports
  composed states := states.2.compositions
  settle := RenamedState.settleLiterals
  recordImported := by
    intro site state other reference path entry otherEntry states listed means entries
    -- The entry differs only in ways that make the symbol borrow the difference.
    have same : otherEntry.joined = entry.joined ∨
        project.Borrows site.path reference.localName := by
      by_cases borrows : project.Borrows site.path reference.localName
      · exact .inr borrows
      · left
        apply entries.joined_eq
        · exact fun scopes => borrows (.named listed means scopes)
        · exact fun owns => borrows (.named listed means (.inr owns))
        · exact fun writes => borrows (.text listed means writes)
    exact ⟨states.1.recordImported entries.isLiteral_eq same fun isAlias borrows =>
      .alias (states.2.valueAliases _ isAlias) borrows, states.2.recordImported _ _⟩
  compose {_ _ _ owner _ parts otherParts} states composes named := by
    have owns := ModuleState.contains_of_mem_compositionsOf composes
    have external : otherParts.any Prod.snd = parts.any Prod.snd := by
      clear composes owns
      induction named with
      | nil => rfl
      | @cons part otherPart _ _ same _ induction =>
        rw [List.any_cons, List.any_cons, induction, show otherPart.2 = part.2 from same]
    rw [external]
    exact ⟨states.1.compose owns _ _ _, states.2.compose _ _ _⟩
  release states name := ⟨states.1.release name, states.2.release name⟩

theorem keepsNames_patterns :
    (project.comparePatterns pattern).likeness.KeepsNames project.workspace where
  isLiteral entries := entries.isLiteral_eq
  excuses extra := extra.elim
  sameFile _ _ _ := rfl
  passThrough _ _ _ := rfl
  file _ _ _ _ := rfl

/-! ### Collecting -/

/-- Once all declarations of a file have been made, its table tells which names are scoped. -/
theorem renamed_declared {path : Path} {other : ModuleState}
    (renamed : (project.declared path).Renamed
      (.collecting (project.context path)
        ((project.workspace.withPattern pattern).context path (project.text path))) other) :
    project.RenamedState pattern path (project.declared path) other := by
  refine ⟨{ renamed with table := ?_, symbols := ?_ }, within_declared⟩
  · -- An entry with a scoped name stands in the table itself, which is why the name is scoped.
    refine OrderedMap.Alike.mono renamed.table fun name entry otherEntry member entries => ?_
    refine { entries with primary := ?_, composed := ?_ }
    · rcases entries.primary with same | ⟨kind, _, first, second⟩ | ⟨_, writes⟩
      · exact .inl same
      · exact .inr (.inl ⟨kind, .inl ⟨entry, member, kind⟩, first, second⟩)
      · exact writes.elim
    · exact .inl (entries.composed.resolve_right id)
  · exact renamed.symbols.mono fun _ _ _ _ same => .inl (same.resolve_right id)

theorem ends_run_patterns (path : Path) :
    ((project.comparePatterns pattern).collections path).Ends
      ((project.comparePatterns pattern).likeness.sheets path)
      (Collect.run (project.context path) (parse (project.text path)))
      (Collect.run ((project.workspace.withPattern pattern).context path (project.text path))
        (parse (project.text path))) := by
  apply Collect.ends_run (Collect.counterparts_twice project.workspace pattern path _)
    ⟨.empty, rfl⟩ ((project.comparePatterns pattern).collections path) (fun _ => id) (fun _ _ => id)
  intro collection otherCollection alike declares _
  have states : project.RenamedState pattern path collection.state otherCollection.state := by
    have renamed := alike.1
    rw [declares] at renamed ⊢
    exact project.renamed_declared pattern renamed
  refine ⟨?_, alike.2⟩
  unfold Collection.settled
  rw [states.1.imports]
  exact states.settleLiterals _

/-! ### Closing -/

theorem closes_patterns {path : Path} {state other : ModuleState} {sheet otherSheet : Stylesheet}
    (states : project.RenamedState pattern path state other)
    (sheets : (project.comparePatterns pattern).likeness.sheets path sheet otherSheet) :
    (project.comparePatterns pattern).modules path (project.workspace.closed path state sheet)
      ((project.workspace.withPattern pattern).closed path other otherSheet) := by
  have substituted := Node.AlikeAll.substitute states.1 sheets
  exact ⟨⟨rfl, rfl, states.1, Workspace.alikeAll_closed rfl substituted⟩, states.2⟩

theorem holds_patterns : (project.comparePatterns pattern).Holds where
  resolver := rfl
  files := rfl
  keepsStates := project.keepsStates_patterns pattern
  keepsNames := project.keepsNames_patterns pattern
  empty _ := ⟨.empty, within_empty⟩
  path modules := ⟨modules.1.path, modules.1.otherPath⟩
  state modules := ⟨modules.1.state, modules.2⟩
  collects := project.ends_run_patterns pattern
  closes := project.closes_patterns pattern

end Project

end ScopedStyles
