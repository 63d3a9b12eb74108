import ScopedStyles.Proofs.Composition.Firmness
import ScopedStyles.Proofs.Composition.Union
import ScopedStyles.Proofs.Graph.Arriving

/-!
What is read from a file that is still being compiled is final. Main statement: when every file
introduces every name in one way and a run succeeds, each answer of an unfinished file is the answer
of its table at the end, unless it was put off; and whatever an importer substitutes or composes, at
any moment of the run, is a whole final entry.
-/

namespace ScopedStyles.Project

open ScopedStyles.Graph

variable {project : Project} {graph after : Graph} {path : Path} {name : String} {answer : Lookup}

/-- The entry of the name that an import means, in the tables of the files that have been
compiled. -/
def importedEntry? (project : Project) (graph : Graph) (path : Path)
    (reference : ImportReference) : Option TokenEntry :=
  (project.imported? path reference.specifier reference.imported).bind fun target =>
    (graph.table? target.1).bind (·.get? target.2)

/-- A graph that a run that succeeds passes through. -/
structure Passes (project : Project) (moment : Graph) : Prop where
  before : project.opened.Steps project.workspace False moment
  behind : moment.Steps project.workspace False project.run.graph

/-- Nothing that is read in the course of a run changes later. -/
structure Final (project : Project) : Prop where
  /-- The run passes through its beginning. -/
  begins : project.Passes project.opened
  /-- An answer of a file that is not finished is the one of its table at the end, unless it is put
  off. -/
  answers : ∀ path name answer, .answered path name answer ∈ project.run.graph.events →
    answer ≠ .unsettled →
    ∃ table, project.run.graph.table? path = some table ∧ table.lookup name = answer
  /-- At any moment, a name that does not wait has its last entry, or will never have one. -/
  settled : ∀ moment, project.Passes moment → ∀ path name, moment.has path →
    moment.IsSettled path name →
    ∃ table, project.run.graph.table? path = some table ∧
      table.lookup name = (moment.stateAt (.file path)).table.lookup name
  /-- At any moment, the text that is substituted for the alias of an import is the whole final
  entry. -/
  substitutes : ∀ moment, project.Passes moment → ∀ path,
    ∀ reference ∈ (moment.stateAt (.file path)).imports, ∀ text,
    (moment.stateAt (.file path)).symbols.get? reference.localName = some text →
    ∃ entry, project.importedEntry? project.run.graph path reference = some entry ∧
      entry.joined = text
  /-- At any moment, the names that are composed for the alias of an imported class are those of the
  whole final entry. -/
  aliases : ∀ moment, project.Passes moment → ∀ path,
    ∀ reference ∈ (moment.stateAt (.file path)).imports, ∀ names,
    (moment.stateAt (.file path)).classAliases.get? reference.localName = some names →
    ∃ entry, project.importedEntry? project.run.graph path reference = some entry ∧
      entry.names = names
  /-- At the end, every import has its text. -/
  imports : ∀ path table, project.run.graph.table? path = some table →
    ∀ reference ∈ (project.declared path).imports,
    ∃ entry, project.importedEntry? project.run.graph path reference = some entry ∧
      (project.run.graph.stateAt (.file path)).symbols.get? reference.localName =
        some entry.joined
  /-- At the end, every class stands for what its references stand for at the end. -/
  composes : project.Solves project.run.graph project.run.graph.finalNames

theorem Firm.holds_later (oneWay : project.OneWay) (firm : project.Firm graph)
    (steps : graph.Steps project.workspace False after) (holds : graph.Holds path name answer) :
    after.Holds path name answer := by
  induction steps with
  | refl => exact holds
  | tail before step induction => exact (firm.steps oneWay before).holds step induction

/-- What is settled when all files are finished stands in their tables. -/
theorem Settled.lookup (settled : project.Settled graph) (holds : graph.Holds path name answer) :
    ∃ table, graph.table? path = some table ∧ table.lookup name = answer := by
  obtain ⟨slot, found⟩ := (OrderedMap.contains_iff_get? _ _).mp holds.has
  exact ⟨_, settled.table?_of_slot found, holds.answers⟩

theorem Settled.importedEntry? (settled : project.Settled graph) {reference : ImportReference}
    {fits : TokenEntry → Prop} (imported : project.Imported graph path reference fits) :
    ∃ entry, project.importedEntry? graph path reference = some entry ∧ fits entry := by
  obtain ⟨target, entry, means, holds, isFit⟩ := imported
  obtain ⟨table, known, answers⟩ := settled.lookup holds
  refine ⟨entry, ?_, isFit⟩
  rw [Project.importedEntry?, imported?_of_resolve means, Option.bind_some, known, Option.bind_some]
  unfold TokenTable.lookup at answers
  split at answers
  · rename_i isEntry
    cases answers
    exact isEntry
  · cases answers

/-- When every file introduces every name in one way only, whatever is read in a run that succeeds
is final. -/
theorem reads_in_flight_are_final (oneWay : project.OneWay) {file : ProcessedFile}
    (succeeds : project.run.outcome = .ok file) : project.Final := by
  have settled := settled_run oneWay succeeds
  obtain ⟨resolved, sheet, arrives⟩ := Processing.arrives_of_succeeds succeeds
  have first : project.Firm project.opened := firm_opened oneWay arrives.collects
  have last := first.steps oneWay arrives.steps
  have firm : ∀ {moment}, project.Passes moment → project.Firm moment :=
    fun passes => first.steps oneWay passes.before
  have later : ∀ {moment}, project.Passes moment → ∀ path name answer,
      moment.Holds path name answer → project.run.graph.Holds path name answer :=
    fun passes _ _ _ holds => (firm passes).holds_later oneWay passes.behind holds
  constructor
  · exact ⟨.refl, arrives.steps⟩
  · intro path name answer noted isSettled
    exact settled.lookup (last.answered path name answer noted isSettled)
  · intro moment passes path name has isSettled
    exact settled.lookup (later passes path name _ ⟨has, isSettled, rfl⟩)
  · intro moment passes path reference listed text known
    have imported := ((firm passes).rests path).imports reference listed text known
    exact settled.importedEntry? (imported.mono (later passes))
  · intro moment passes path reference listed names known
    have imported := ((firm passes).rests path).aliases reference listed names known
    exact settled.importedEntry? (imported.mono (later passes))
  · intro path table known reference listed
    obtain ⟨compiled, isSlot, rfl⟩ := slot_of_table? known
    obtain ⟨_, equal, _, develops⟩ := last.filed _ _ isSlot
    cases equal
    have isListed : reference ∈ compiled.state.imports :=
      develops.sameDeclarations.imports ▸ listed
    obtain ⟨text, hasText⟩ := (OrderedMap.contains_iff_get? _ _).mp
      ((last.complete path compiled isSlot).imported reference isListed)
    have state : project.run.graph.stateAt (.file path) = compiled.state := stateAt_of_get? isSlot
    rw [state]
    have imported := (last.rests path).imports reference (state ▸ isListed) text (state ▸ hasText)
    obtain ⟨entry, isEntry, rfl⟩ := settled.importedEntry? imported
    exact ⟨entry, isEntry, hasText⟩
  · exact settled.solves oneWay

/-- Two files that import each other. The second one asks the first one for a class whose
compositions wait, while the first one waits for the second. -/
def mirror : Project where
  workspace :=
    { options := { Options.standard with namePattern := .template "[local]" }
      files := .ofList .top [("/a.css", ""),
        ("/b.css", ":import('./a.css')\x7by:a\x7d.b\x7b\x7d")]
      resolver := .nearest }
  root := .parse "/a.css"
  source := ":import('./b.css')\x7bx:b\x7d.a\x7bcomposes:global(g)\x7d"

theorem mirror_reads_final : mirror.OneWay ∧ (∃ file, mirror.run.outcome = .ok file) ∧
    mirror.Final ∧
    .answered mirror.root "a" .unsettled ∈ mirror.run.graph.events ∧
    ∃ table, mirror.run.graph.table? mirror.root = some table ∧
      table.lookup "a" = .found ⟨"a", ["g"], .localName, false, true⟩ := by
  have oneWay : mirror.OneWay := oneWay_of_files (by decide +kernel) (by decide +kernel)
  have runs : mirror.run.outcome.toOption.isSome ∧
      .answered mirror.root "a" .unsettled ∈ mirror.run.graph.events ∧
      .answered mirror.root "a" (.found ⟨"a", ["g"], .localName, false, true⟩) ∈
        mirror.run.graph.events := by decide +kernel
  obtain ⟨isSome, putOff, found⟩ := runs
  cases succeeds : mirror.run.outcome with
  | error halt =>
    rw [succeeds] at isSome
    cases isSome
  | ok file =>
    have final := reads_in_flight_are_final oneWay succeeds
    exact ⟨oneWay, ⟨file, rfl⟩, final, putOff, final.answers _ _ _ found nofun⟩

end ScopedStyles.Project
