import ScopedStyles.Proofs.Composition.Running

/-!
Composition is the ordered transitive union. Main statement: when a run succeeds, its classes lie on
no cycle of compositions, every owner of compositions stands for its own name followed by what its
references stand for, and no other assignment of names satisfies the same equations, so the order in
which owners are resolved does not matter.
-/

namespace ScopedStyles

namespace Graph

/-- The table of a file that has been compiled. -/
def table? (graph : Graph) (path : Path) : Option TokenTable :=
  match graph.slots.get? (.file path) with
  | some (.finished compiled) => some compiled.table
  | _ => none

/-- The names of a class in the tables of the files that have been compiled. -/
def finalNames (graph : Graph) (path : Path) (name : String) : List String :=
  (((graph.table? path).bind (·.get? name)).map TokenEntry.names).getD []

end Graph

namespace Project

variable {project : Project} {path : Path} {name : String} {entry : TokenEntry}
  {table : TokenTable}

/-- What a reference stands for when classes stand for these names. -/
def standsFor (project : Project) (names : Path → String → List String) (path : Path)
    (reference : Reference) : List String :=
  match project.target? path reference with
  | some target => names target.1 target.2
  | none => [reference.name]

/-- Classes with an entry stand for the union of their own name and what they compose. -/
def Solves (project : Project) (graph : Graph) (names : Path → String → List String) : Prop :=
  ∀ path table name entry, graph.table? path = some table → table.get? name = some entry →
    entry.isLiteral = false →
    names path name = union entry.primary ((project.declared path).compositionsOf name)
      (project.standsFor names path)

/-- All files of a graph are finished, and all their entries are sound. -/
structure Settled (project : Project) (graph : Graph) : Prop where
  sound : project.Sound graph
  finished : ∀ site slot, graph.slots.get? site = some slot →
    ∃ compiled, site = .file compiled.path ∧ slot = .finished compiled

variable {graph : Graph}

theorem Settled.table?_of_slot (settled : project.Settled graph) {slot : Slot}
    (found : graph.slots.get? (.file path) = some slot) :
    graph.table? path = some (graph.stateAt (.file path)).table := by
  rcases settled.finished _ _ found with ⟨compiled, _, rfl⟩
  rw [Graph.table?, found, Graph.stateAt_of_get? found]
  rfl

theorem slot_of_table? (known : graph.table? path = some table) :
    ∃ compiled, graph.slots.get? (.file path) = some (.finished compiled) ∧
      table = (graph.stateAt (.file path)).table := by
  unfold Graph.table? at known
  split at known
  · rename_i compiled found
    cases known
    refine ⟨compiled, found, ?_⟩
    rw [Graph.stateAt_of_get? found]
    rfl
  · cases known

/-- An entry that is no text has the names that its class stands for. -/
theorem Settled.names (settled : project.Settled graph) (known : graph.table? path = some table)
    (found : table.get? name = some entry) (isClass : entry.isLiteral = false) :
    project.Names graph.Exports path name entry.names := by
  rcases slot_of_table? known with ⟨compiled, isSlot, rfl⟩
  exact settled.sound.settled path name entry found isClass (.inr ⟨compiled, isSlot⟩)

theorem Settled.entry_of_exports (settled : project.Settled graph)
    (exports : graph.Exports path name) :
    ∃ table entry, graph.table? path = some table ∧ table.get? name = some entry ∧
      entry.isLiteral = false := by
  rcases exports with ⟨entry, found, isClass⟩
  rcases Graph.slot_of_entry found with ⟨slot, isSlot, _⟩
  exact ⟨_, entry, settled.table?_of_slot isSlot, found, isClass⟩

theorem finalNames_of_entry (known : graph.table? path = some table)
    (found : table.get? name = some entry) : graph.finalNames path name = entry.names := by
  simp [Graph.finalNames, known, found]

/-- The own name of an entry is the one that its class was declared with. -/
theorem Settled.primary (oneWay : project.OneWay) (settled : project.Settled graph)
    (known : graph.table? path = some table) (found : table.get? name = some entry)
    (isClass : entry.isLiteral = false) {first : TokenEntry}
    (declares : (project.declared path).table.get? name = some first) :
    entry.primary = first.primary := by
  rcases slot_of_table? known with ⟨compiled, isSlot, rfl⟩
  rcases settled.sound.filed _ _ isSlot with ⟨_, equal, _, develops⟩
  cases equal
  rw [Graph.stateAt_of_get? isSlot] at found
  have unwritten := (namesClass_of_entry oneWay develops found isClass).toUnwritten
  rcases develops.hasOwn unwritten ⟨first, declares, rfl, rfl⟩ with ⟨last, isLast, primary, _⟩
  cases isLast.symm.trans found
  exact primary

/-- The names of a class are the union of its own name and what its references stand for. -/
theorem Settled.solves (oneWay : project.OneWay) (settled : project.Settled graph) :
    project.Solves graph graph.finalNames := by
  intro path table name entry known found isClass
  have derives := settled.names known found isClass
  rw [finalNames_of_entry known found]
  generalize entry.names = names at derives
  rcases derives with ⟨first, named, declares, passes, means, isPresent, refers⟩
  rw [settled.primary oneWay known found isClass declares]
  refine union_congr fun composition member reference referred => ?_
  unfold standsFor
  cases isTarget : project.target? path reference with
  | some target =>
    obtain ⟨table, entry, known, found, isClass⟩ :=
      settled.entry_of_exports (isPresent composition member reference referred target isTarget)
    dsimp only
    rw [finalNames_of_entry known found]
    exact (refers composition member reference referred target isTarget).unique
      (settled.names known found isClass)
  | none =>
    apply passes composition member reference referred
    by_contra refers
    have some := means composition member reference referred refers
    rw [isTarget] at some
    cases some

theorem Settled.entry_of_owner (oneWay : project.OneWay) (settled : project.Settled graph)
    (known : graph.table? path = some table) {owner : String}
    (owns : (project.declared path).compositions.contains owner) :
    ∃ entry, table.get? owner = some entry ∧ entry.isLiteral = false ∧
      entry.primary = (project.context path).scopedName owner := by
  rcases slot_of_table? known with ⟨compiled, isSlot, rfl⟩
  rcases settled.sound.filed _ _ isSlot with ⟨_, equal, _, develops⟩
  cases equal
  rcases Collect.namesClass_of_contains_compositions (oneWay path) owns with ⟨namesClass, declares⟩
  rcases develops.hasOwn namesClass.toUnwritten ⟨_, declares, rfl, rfl⟩ with
    ⟨entry, found, primary, kind⟩
  refine ⟨entry, ?_, ?_, primary⟩
  · rw [Graph.stateAt_of_get? isSlot]
    exact found
  · rw [TokenEntry.isLiteral, kind]
    rfl

theorem Settled.acyclic (oneWay : project.OneWay) (settled : project.Settled graph)
    (known : graph.table? path = some table) (name : String) :
    ¬ Relation.TransGen project.Composes (path, name) (path, name) := by
  intro cycle
  rcases Relation.TransGen.head'_iff.mp cycle with ⟨next, ⟨composition, member, _⟩, _⟩
  have owns := ModuleState.contains_of_mem_compositionsOf member
  rcases settled.entry_of_owner oneWay known owns with ⟨entry, found, isClass, _⟩
  exact (settled.names known found isClass).acyclic cycle

theorem settled_run (oneWay : project.OneWay) {file : ProcessedFile}
    (succeeds : project.run.outcome = .ok file) : project.Settled project.run.graph := by
  rcases sound_run oneWay succeeds with ⟨sound, resolved, sheet, ends⟩
  exact ⟨sound, fun _ _ found => ends.finished found⟩

/-! ## The union -/

theorem Settled.present (oneWay : project.OneWay) (settled : project.Settled graph)
    (known : graph.table? path = some table) {owner : String} {composition : Composition}
    (member : composition ∈ (project.declared path).compositionsOf owner) {reference : Reference}
    (referred : reference ∈ composition.references) (refers : reference.source ≠ .passThrough) :
    ∃ target table entry, project.target? path reference = some target ∧
      graph.table? target.1 = some table ∧ table.get? target.2 = some entry ∧
      entry.isLiteral = false := by
  rcases settled.entry_of_owner oneWay known
      (ModuleState.contains_of_mem_compositionsOf member) with
    ⟨entry, found, isClass, _⟩
  have derives := settled.names known found isClass
  generalize entry.names = names at derives
  rcases derives with ⟨_, _, _, _, means, isPresent, _⟩
  rcases Option.isSome_iff_exists.mp (means composition member reference referred refers) with
    ⟨target, isTarget⟩
  obtain ⟨table, entry, known, found, isClass⟩ :=
    settled.entry_of_exports (isPresent composition member reference referred target isTarget)
  exact ⟨target, table, entry, isTarget, known, found, isClass⟩

/-- It is enough to look at the root and at the files that can be read. -/
theorem oneWay_of_files (root : Record.OneWay (project.records project.root))
    (files : ∀ file ∈ project.workspace.files.contents.entries,
      Record.OneWay (project.records file.1)) : project.OneWay := by
  exact forall_of_files (fun path none => none ▸ .nil) root files

/-- Two files that import each other, with an alias, a name that passes through, and two
compositions of one class. -/
def circle : Project where
  workspace :=
    { options := { Options.standard with namePattern := .template "[name]_[local]" }
      files := .ofList .top [("/a.css", ""),
        ("/b.css", ".lone\x7bcomposes:base from './a.css'\x7d.tone\x7bcomposes:lone\x7d")]
      resolver := .nearest }
  root := .parse "/a.css"
  source := ":import('./b.css')\x7branked:tone\x7d.base\x7b\x7d" ++
    ".card\x7bcomposes:base ranked;composes:lone global(reset) from './b.css'\x7d"

end Project

end ScopedStyles
