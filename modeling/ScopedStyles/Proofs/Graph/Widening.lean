import ScopedStyles.Proofs.Graph.Comparison
import ScopedStyles.Proofs.Graph.Completion
import ScopedStyles.Proofs.Module.Widening

/-!
Processing with global names exported. A project is processed twice, the second time with its global
names exported. If the first run succeeds, the second one compiles the same files in the same order
to tables that have the same entries and global names besides. A class that is composed of the alias
of an import may differ if the file also has that alias for a global name: the name then stands for
itself. So may whatever takes such a class from another file or composes it.
-/

namespace ScopedStyles

open Compiling

/-- The same files, with global names exported or not. -/
def Workspace.exportingGlobals (workspace : Workspace) (exportGlobals : Bool) : Workspace :=
  { workspace with options := { workspace.options with exportGlobals } }

/-! ## Collecting a file -/

namespace Collect

/-- Collections of one file that differ in global names. -/
def globals : Pairing Failure Collection where
  alike collection otherCollection :=
    collection.state.Widened .collecting otherCollection.state ∧
      otherCollection.malformed = collection.malformed
  ended _ _ := True
  excused _ := True
  ended_of_alike _ := trivial

theorem counterparts_globals (workspace : Workspace) (path : Path) (source : String) :
    (workspace.context path source).Counterparts globals
      ((workspace.exportingGlobals true).context path source) where
  path := rfl
  exportGlobals _ := rfl
  mode := .refl _
  checks := id
  excuses isPure otherMode := absurd isPure otherMode
  literals alike := alike.1.literals
  replays alike records := by
    refine ⟨alike.1.replay Widening.keepsLiterals (Widening.keepsNames_collecting rfl) records, ?_⟩
    rw [Collection.replay, alike.2]
    rfl
  passes _ _ _ _ alike name := by
    refine ⟨{ alike.1 with table := TokenTable.Widened.pass alike.1.table trivial }, ?_⟩
    rw [Collection.replay, alike.2]
    exact List.append_nil _

end Collect

namespace Project

variable (project : Project)

/-! ## What may differ -/

/-- The same project with its global names exported. -/
def exporting : Project :=
  { project with workspace := project.workspace.exportingGlobals true }

/-- A global name that a file has an entry for only because global names are exported. -/
def Exposes (path : Path) (name : String) : Prop :=
  (project.declared path).table.get? name = none ∧
    (project.exporting.declared path).table.contains name

mutual
/-- The entry of a name may differ. The name is composed of the alias of an import, whose place an
exported global name takes; or it is composed of something that may differ, or holds it. -/
inductive Strays : Path → String → Prop where
  | shadowed {path : Path} {owner : String} {composition : Composition}
      {reference : ImportReference}
      (composes : composition ∈ (project.declared path).compositionsOf owner)
      (refers : ⟨reference.localName, .sameFile⟩ ∈ composition.references)
      (listed : reference ∈ (project.declared path).imports)
      (exposes : project.Exposes path reference.localName) : Strays path owner
  | sameFile {path : Path} {owner name : String} {composition : Composition}
      (composes : composition ∈ (project.declared path).compositionsOf owner)
      (refers : ⟨name, .sameFile⟩ ∈ composition.references) (strays : Strays path name) :
      Strays path owner
  | alias {path : Path} {owner name : String} {composition : Composition}
      (composes : composition ∈ (project.declared path).compositionsOf owner)
      (refers : ⟨name, .sameFile⟩ ∈ composition.references) (drifts : Drifts path name) :
      Strays path owner
  | file {path target : Path} {owner name specifier : String} {composition : Composition}
      (composes : composition ∈ (project.declared path).compositionsOf owner)
      (refers : ⟨name, .file specifier⟩ ∈ composition.references)
      (means : project.workspace.resolver.resolve project.workspace.files specifier path =
        .ok target)
      (strays : Strays target name) : Strays path owner
  | literal {path : Path} {name mentioned : String} {literal : Literal}
      (holds : (name, literal) ∈ (project.declared path).literals.entries)
      (mentions : mentioned ∈ mentionedNames literal.raw) (drifts : Drifts path mentioned) :
      Strays path name
  | valueAlias {path : Path} {name : String}
      (isAlias : name ∈ (project.declared path).valueAliases) (drifts : Drifts path name) :
      Strays path name

/-- The text of a symbol may differ, and the names behind an alias: what is imported may differ, or
the symbol is a value that mentions one that may. -/
inductive Drifts : Path → String → Prop where
  | imported {path target : Path} {reference : ImportReference}
      (listed : reference ∈ (project.declared path).imports)
      (means : project.workspace.resolver.resolve project.workspace.files reference.specifier path =
        .ok target)
      (strays : Strays target reference.imported) : Drifts path reference.localName
  | value {path : Path} {name mentioned : String} {literal : Literal}
      (holds : (name, literal) ∈ (project.declared path).literals.entries)
      (isValue : literal.isValue) (mentions : mentioned ∈ mentionedNames literal.raw)
      (drifts : Drifts path mentioned) : Drifts path name
end

/-- A file composes the alias of an import that it also has for a global name. -/
def Shadows (path : Path) : Prop :=
  ∃ owner, ∃ composition ∈ (project.declared path).compositionsOf owner,
    ∃ reference ∈ (project.declared path).imports,
      ⟨reference.localName, .sameFile⟩ ∈ composition.references ∧
        project.Exposes path reference.localName

variable {project} {path : Path} {name : String}

/-- Where no alias is shadowed, no entry differs and no symbol: whatever differs does so because of
something else, and in the end because of a shadowed alias. -/
theorem nothing_differs (clear : ∀ path, ¬ project.Shadows path) :
    (∀ path name, ¬ project.Strays path name) ∧ ∀ path symbol, ¬ project.Drifts path symbol := by
  have shadowed {path : Path} {owner : String} {composition : Composition}
      {reference : ImportReference}
      (composes : composition ∈ (project.declared path).compositionsOf owner)
      (refers : ⟨reference.localName, .sameFile⟩ ∈ composition.references)
      (listed : reference ∈ (project.declared path).imports)
      (exposes : project.Exposes path reference.localName) : False :=
    clear path ⟨owner, composition, composes, reference, listed, refers, exposes⟩
  constructor
  · intro path name strays
    refine @Strays.rec project (fun _ _ _ => False) (fun _ _ _ => False) shadowed ?_ ?_ ?_ ?_ ?_ ?_
      ?_ path name strays
    all_goals intros; assumption
  · intro path symbol drifts
    refine @Drifts.rec project (fun _ _ _ => False) (fun _ _ _ => False) shadowed ?_ ?_ ?_ ?_ ?_ ?_
      ?_ path symbol drifts
    all_goals intros; assumption

/-- No alias is shadowed if no alias of an import is a global name of its file. It is enough to look
at the root and at the files that can be read. -/
theorem not_shadows_of_files
    (apart : ∀ path ∈ project.root :: project.workspace.files.contents.keys,
      ∀ reference ∈ (project.declared path).imports,
        ¬ (project.exporting.declared path).table.contains reference.localName) :
    ¬ project.Shadows path := by
  rintro ⟨_, _, _, reference, listed, _, _, contained⟩
  refine apart path ?_ reference listed contained
  by_contra unknown
  rw [List.mem_cons, not_or, ← OrderedMap.contains_iff_mem_keys, OrderedMap.contains,
    Option.not_isSome_iff_eq_none] at unknown
  rw [declared_of_unknown unknown.1 unknown.2] at listed
  cases listed

theorem not_exposes_of_composes {composition : Composition}
    (composes : composition ∈ (project.declared path).compositionsOf name) :
    ¬ project.Exposes path name := by
  rintro ⟨absent, _⟩
  have declared : Record.declared name ∈ Collect.sheetRecords (project.context path)
      (parse (project.text path)) :=
    Collect.declared_of_contains_compositions (ModuleState.contains_of_mem_compositionsOf composes)
  have known : (project.declared path).table.contains name :=
    ModuleState.contains_table_of_mem declared (.inl rfl)
  obtain ⟨entry, found⟩ := (OrderedMap.contains_iff_get? _ _).mp known
  cases absent.symm.trans found

/-- What may differ in a file when global names are exported. -/
def widening (project : Project) (path : Path) : Widening where
  passes := project.Exposes path
  strays := project.Strays path
  drifts := project.Drifts path

/-! ## States and modules -/

structure WidenedState (project : Project) (path : Path) (state other : ModuleState) : Prop where
  widened : state.Widened (project.widening path) other
  within : project.Within path state
  aliased : ∀ name names, state.classAliases.get? name = some names →
    ∃ reference ∈ (project.declared path).imports, reference.localName = name

namespace WidenedState

variable {state other : ModuleState}

theorem empty : project.WidenedState path .empty .empty :=
  ⟨.empty .empty, within_empty, fun _ _ found => nomatch found⟩

theorem settleLiterals (states : project.WidenedState path state other) (blocked : List String) :
    project.WidenedState path (state.settleLiterals blocked) (other.settleLiterals blocked) where
  widened := by
    refine states.widened.settleLiterals Widening.keepsLiterals
      (fun entry member mentioned mentions drifts => ?_) blocked
    have holds := states.within.literals entry member
    exact ⟨.literal holds mentions drifts, fun isValue => .value holds isValue mentions drifts⟩
  within := states.within.settleLiterals blocked
  aliased name names found := by
    rw [ModuleState.classAliases_settleLiterals] at found
    exact states.aliased name names found

theorem recordImported (states : project.WidenedState path state other)
    {reference : ImportReference} {target : Path} {entry otherEntry : TokenEntry}
    (listed : reference ∈ (project.declared path).imports)
    (means : project.workspace.resolver.resolve project.workspace.files reference.specifier path =
      .ok target)
    (entries : entry.Widened (project.widening target) reference.imported otherEntry) :
    project.WidenedState path (state.recordImported reference.localName entry)
      (other.recordImported reference.localName otherEntry) where
  widened := by
    have same : otherEntry = entry ∨ project.Drifts path reference.localName := by
      by_cases strays : project.Strays target reference.imported
      · exact .inr (.imported listed means strays)
      · exact .inl (entries.same strays)
    exact states.widened.recordImported Widening.keepsLiterals entries.isLiteral_eq
      (same.imp_left (congrArg _)) (same.imp_left (congrArg _)) fun isAlias drifts =>
        .valueAlias (states.within.valueAliases _ isAlias) drifts
  within := states.within.recordImported _ _
  aliased name names found := by
    rcases ModuleState.get?_classAliases_recordImported found with earlier | ⟨rfl, _, _⟩
    · exact states.aliased name names earlier
    · exact ⟨reference, listed, rfl⟩

theorem compose (states : project.WidenedState path state other) {composition : Composition}
    (composes : composition ∈ (project.declared path).compositionsOf name)
    {parts otherParts : List (List String × Bool)}
    (named : List.Forall₂ (fun names others => ¬ project.Strays path name → others = names)
      parts otherParts) :
    project.WidenedState path
      (state.compose name (Resolution.mergeNames (parts.map Prod.fst)) (parts.any Prod.snd))
      (other.compose name (Resolution.mergeNames (otherParts.map Prod.fst))
        (otherParts.any Prod.snd)) where
  widened := by
    have same : ¬ project.Strays path name → otherParts = parts := by
      intro steady
      have same : List.Forall₂ Eq otherParts parts :=
        (named.imp fun _ _ same => same steady).flip
      rwa [List.forall₂_eq_eq_eq] at same
    have own := not_exposes_of_composes composes
    refine { states.widened with
      table := TokenTable.Widened.compose states.widened.table own fun steady => ?_ }
    rw [same steady]
    exact ⟨rfl, rfl⟩
  within := states.within.compose _ _ _
  aliased := states.aliased

theorem release (states : project.WidenedState path state other) (name : String) :
    project.WidenedState path (state.release name) (other.release name) :=
  ⟨states.widened.release name, states.within.release name, states.aliased⟩

end WidenedState

/-- Modules of a file in the two runs: the tables differ in global names, and as far as symbols may
differ so do the sheets. -/
structure WidenedModule (project : Project) (file : Path) (compiled other : CompiledModule) :
    Prop where
  path : compiled.path = file
  otherPath : other.path = file
  state : compiled.state.Widened (project.widening file) other.state
  sheet : Node.AlikeAll (.drifting (project.widening file) compiled.state other.state)
    compiled.sheet other.sheet

/-! ## Laws -/

/-- What matches in a run and in one with global names exported, if the first one succeeds. -/
def compareGlobals (project : Project) : Comparison where
  project
  second := project.workspace.exportingGlobals true
  excuses := True
  states := project.WidenedState
  modules path compiled other :=
    project.WidenedModule path compiled other ∧
      project.WidenedState path compiled.state other.state
  entries path := TokenEntry.Widened (project.widening path)
  extras path := TokenEntry.Added (project.widening path)
  named path owner names others := ¬ project.Strays path owner → others = names

variable (project)

theorem keepsStates_globals : project.compareGlobals.likeness.KeepsStates project.workspace where
  pending states := states.widened.pending
  compositions states := states.widened.compositions
  imports states := states.widened.imports
  symbols states name := states.widened.symbols.contains_eq name
  table states := states.widened.table
  classAliases {_ state other _ _ name} states composes refers := by
    have found := states.widened.classAliases.get? name
    generalize state.classAliases.get? name = names at found ⊢
    generalize other.classAliases.get? name = otherNames at found ⊢
    cases found with
    | none => exact .none
    | some same =>
      refine .some fun steady => ?_
      rw [same.resolve_right fun drifts => steady (.alias composes refers drifts)]
  shadows {_ state other _ _ name _ _} states composes refers absent aliased found := by
    have added := states.widened.table name
    rw [absent, found] at added
    obtain ⟨reference, listed, rfl⟩ := states.aliased _ _ aliased
    cases added with
    | extra added =>
      refine ⟨by rw [added.plain]; rfl, fun steady => absurd ?_ steady⟩
      exact .shadowed composes refers listed added.passes
  listed states := states.within.imports
  composed states := states.within.compositions
  settle := WidenedState.settleLiterals
  recordImported states listed means entries := states.recordImported listed means entries
  compose states composes named := states.compose composes named
  release := WidenedState.release

theorem keepsNames_globals : project.compareGlobals.likeness.KeepsNames project.workspace where
  isLiteral entries := entries.isLiteral_eq
  excuses _ _ := trivial
  sameFile composes refers entries steady := by
    rw [entries.same fun strays => steady (.sameFile composes refers strays)]
  passThrough _ _ _ _ := rfl
  file composes refers means entries steady := by
    rw [entries.same fun strays => steady (.file composes refers means strays)]

/-! ### Collecting -/

/-- Once all declarations of a file have been made, its table tells which global names stand in the
second table only. -/
theorem widened_declared
    (widened : (project.declared path).Widened .collecting (project.exporting.declared path)) :
    project.WidenedState path (project.declared path) (project.exporting.declared path) := by
  refine ⟨{ widened with table := ?_, symbols := ?_, classAliases := ?_ }, within_declared, ?_⟩
  · intro name
    have exposes : (project.declared path).table.get? name = none →
        (project.exporting.declared path).table.contains name → project.Exposes path name := .intro
    have entries := widened.table name
    have contained : (project.exporting.declared path).table.contains name =
      ((project.exporting.declared path).table.get? name).isSome := rfl
    rw [contained] at exposes
    generalize (project.declared path).table.get? name = entry at entries exposes ⊢
    generalize (project.exporting.declared path).table.get? name = other at entries exposes ⊢
    cases entries with
    | both same => exact .both ⟨same.kind, fun _ => same.same id⟩
    | neither => exact .neither
    | extra added => exact .extra ⟨added.plain, exposes rfl rfl⟩
  · exact widened.symbols.mono fun _ _ _ _ same => .inl (same.resolve_right id)
  · exact widened.classAliases.mono fun _ _ _ _ same => .inl (same.resolve_right id)
  · intro name names found
    rw [declared, Collect.classAliases_declaredState] at found
    cases found

theorem ends_run_globals (path : Path) :
    (project.compareGlobals.collections path).Ends (project.compareGlobals.likeness.sheets path)
      (Collect.run (project.context path) (parse (project.text path)))
      (Collect.run ((project.workspace.exportingGlobals true).context path (project.text path))
        (parse (project.text path))) := by
  apply Collect.ends_run (Collect.counterparts_globals project.workspace path _)
    ⟨.empty .empty, rfl⟩ (project.compareGlobals.collections path) (fun _ => id) (fun _ _ => id)
  intro collection otherCollection alike declares otherDeclares
  have states : project.WidenedState path collection.state otherCollection.state := by
    have widened := alike.1
    rw [declares, otherDeclares] at widened ⊢
    exact project.widened_declared widened
  refine ⟨?_, alike.2⟩
  unfold Collection.settled
  rw [states.widened.imports]
  exact states.settleLiterals _

/-! ### Closing -/

theorem closes_globals {state other : ModuleState} {sheet otherSheet : Stylesheet}
    (states : project.WidenedState path state other)
    (sheets : project.compareGlobals.likeness.sheets path sheet otherSheet) :
    project.compareGlobals.modules path (project.workspace.closed path state sheet)
      ((project.workspace.exportingGlobals true).closed path other otherSheet) := by
  have same : otherSheet = sheet := TextLikeness.renamed_self sheets
  subst same
  have substituted := Node.alikeAll_substitution states.widened otherSheet
  exact ⟨⟨rfl, rfl, states.widened, Workspace.alikeAll_closed rfl substituted⟩, states⟩

theorem holds_globals : project.compareGlobals.Holds where
  resolver := rfl
  files := rfl
  keepsStates := project.keepsStates_globals
  keepsNames := project.keepsNames_globals
  empty _ := .empty
  path modules := ⟨modules.1.path, modules.1.otherPath⟩
  state modules := modules.2
  collects := project.ends_run_globals
  closes := project.closes_globals

end Project

end ScopedStyles
