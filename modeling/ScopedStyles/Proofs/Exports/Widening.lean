import ScopedStyles.Proofs.Graph.Running
import ScopedStyles.Proofs.Graph.Widening

/-!
Results with global names exported. Exporting global names makes no run fail that succeeds without
them, and adds entries to the tables. It changes an entry only where a class is composed of the
alias of an import whose place an exported name takes, or of something that is so changed; and it
changes a sheet only through the rule that lists exports, and through symbols that are so changed.
-/

namespace ScopedStyles.Project

open Compiling Processing

variable {project : Project} {path : Path}

/-! ## Tables -/

/-- A table that has the entries of another one, name by name, and global names besides. -/
structure Gains (project : Project) (path : Path) (table other : TokenTable) : Prop where
  retains : ∀ name entry, ¬ project.Strays path name → entry.kind ≠ .globalName →
    (other.get? name = some entry ↔ table.get? name = some entry)
  kinds : ∀ name entry, table.get? name = some entry →
    ∃ later, other.get? name = some later ∧ later.kind = entry.kind
  adds : ∀ name entry, other.get? name = some entry → table.get? name = none →
    entry = .plain .globalName name

theorem gains_of_widened {table other : TokenTable}
    (widened : table.Widened (project.widening path) other) : project.Gains path table other where
  retains name entry steady noGlobal := by
    have entries := widened name
    generalize table.get? name = first at entries ⊢
    generalize other.get? name = second at entries ⊢
    cases entries with
    | both same => rw [same.same steady]
    | neither => exact .rfl
    | extra added =>
      have different : TokenEntry.plain .globalName name ≠ entry := by
        rintro rfl
        exact noGlobal rfl
      simp [added.plain, different]
  kinds name entry found := by
    have entries := widened name
    rw [found] at entries
    generalize other.get? name = second at entries ⊢
    cases entries with
    | both same => exact ⟨_, rfl, same.kind⟩
  adds name entry found absent := by
    have entries := widened name
    rw [found, absent] at entries
    cases entries with
    | extra added => exact added.plain

/-! ## Results -/

def Steady (project : Project) (path : Path) : Prop :=
  ∀ symbol, ¬ project.Drifts path symbol

/-- What the options put in front of everything else: a rule that lists the exports. -/
def exportRule (project : Project) (file : ProcessedFile) : Stylesheet :=
  if project.workspace.options.emitExportRule then [file.exported.toRule] else []

/-- A processed file, and the same file with global names exported: the same files have been
compiled in the same order, their tables have only gained entries, and their sheets are the same. -/
structure OnlyAdds (project : Project) (first second : Invocation) (file other : ProcessedFile) :
    Prop where
  path : other.path = file.path
  processed : other.processed = file.processed
  tables : List.Forall₂
    (fun compiled later => later.path = compiled.path ∧
      project.Gains compiled.path compiled.table later.table)
    first.graph.finished second.graph.finished
  tokens : project.Gains file.path file.tokens other.tokens
  dependencies : List.Forall₂
    (fun dependency later => later.path = dependency.path ∧
      (project.Steady dependency.path → later.css = dependency.css))
    file.dependencies other.dependencies
  css : project.Steady file.path →
    (project.workspace.options.inlineDependencies →
      ∀ dependency ∈ file.dependencies, project.Steady dependency.path) →
    ∃ sheet, file.css = render (project.exportRule file ++ sheet) ∧
      other.css = render (project.exportRule other ++ sheet)

/-- Where the first run succeeds, so does the second one, and its result only adds entries. -/
def AddsGlobals (project : Project) (first second : Invocation) : Prop :=
  ∀ file, first.outcome = .ok file →
    ∃ other, second.outcome = .ok other ∧ project.OnlyAdds first second file other

theorem WidenedModule.sheet_eq {compiled other : CompiledModule}
    (modules : project.WidenedModule path compiled other) (steady : project.Steady path) :
    other.sheet = compiled.sheet :=
  modules.sheet.eq_of_steady steady

theorem sheets_eq {modules others : List CompiledModule}
    (widened : List.Forall₂ (fun compiled => project.WidenedModule compiled.path compiled) modules
      others)
    (steady : ∀ compiled ∈ modules, project.Steady compiled.path) :
    others.flatMap CompiledModule.sheet = modules.flatMap CompiledModule.sheet := by
  induction widened with
  | nil => rfl
  | cons head _ induction =>
    rw [List.flatMap_cons, List.flatMap_cons, head.sheet_eq (steady _ List.mem_cons_self),
      induction fun compiled member => steady compiled (List.mem_cons_of_mem _ member)]

theorem widened_of_matches {modules others : List CompiledModule}
    (match_ : List.Forall₂ (fun compiled => project.compareGlobals.modules compiled.path compiled)
      modules others) :
    List.Forall₂ (fun compiled => project.WidenedModule compiled.path compiled) modules others :=
  match_.imp fun _ _ => And.left

theorem onlyAdds_of_matches {graph otherGraph : Graph} {root other : CompiledModule}
    (match_ : project.compareGlobals.Graphs graph otherGraph)
    (modules : project.WidenedModule project.root root other) :
    project.OnlyAdds
      ⟨.ok (summarize project.workspace.options graph root), graph⟩
      ⟨.ok (summarize (project.workspace.exportingGlobals true).options otherGraph other),
        otherGraph⟩
      (summarize project.workspace.options graph root)
      (summarize (project.workspace.exportingGlobals true).options otherGraph other) := by
  have samePath : other.path = root.path := modules.otherPath.trans modules.path.symm
  have others := widened_of_matches (match_.dependencies project.holds_globals root.path)
  refine ⟨samePath, match_.processed_eq, ?_, ?_, ?_, ?_⟩
  · exact (widened_of_matches match_.finished).imp fun _ _ widened =>
      ⟨widened.otherPath, gains_of_widened widened.state.table⟩
  · change project.Gains root.path root.table other.table
    rw [modules.path]
    exact gains_of_widened modules.state.table
  · change List.Forall₂ _ ((dependencies graph root.path).map _)
      ((dependencies otherGraph other.path).map _)
    rw [samePath, List.forall₂_map_left_iff, List.forall₂_map_right_iff]
    exact others.imp fun _ _ widened =>
      ⟨widened.otherPath, fun steady => congrArg render (widened.sheet_eq steady)⟩
  · intro steady inlined
    change project.Steady root.path at steady
    rw [modules.path] at steady
    refine ⟨(if project.workspace.options.inlineDependencies then
      (dependencies graph root.path).flatMap CompiledModule.sheet else []) ++ root.sheet, ?_, ?_⟩
    · rw [← List.append_assoc]
      rfl
    · have inlinedSheets : (if project.workspace.options.inlineDependencies then
          (dependencies otherGraph other.path).flatMap CompiledModule.sheet else []) =
          if project.workspace.options.inlineDependencies then
            (dependencies graph root.path).flatMap CompiledModule.sheet else [] := by
        split
        · rename_i inlines
          rw [samePath]
          exact sheets_eq others fun compiled member =>
            inlined inlines ⟨compiled.path, render compiled.sheet⟩
              (List.mem_map.mpr ⟨compiled, member, rfl⟩)
        · rfl
      rw [← modules.sheet_eq steady, ← inlinedSheets, ← List.append_assoc]
      rfl

theorem run_exportingGlobals (project : Project) :
    project.AddsGlobals (Processing.run project.workspace project.root project.source)
      (Processing.run (project.workspace.exportingGlobals true) project.root project.source) := by
  have ends : project.compareGlobals.likeness.Ends (project.compareGlobals.modules project.root)
      (outcome (Graph.compile project.workspace project.root project.source) .empty)
      (outcome (Graph.compile (project.workspace.exportingGlobals true) project.root
        project.source) .empty) := project.holds_globals.ends
  intro file succeeds
  rw [run_eq] at succeeds ⊢
  rw [run_eq]
  generalize outcome (Graph.compile project.workspace _ _) .empty = ending at ends succeeds ⊢
  generalize outcome (Graph.compile (project.workspace.exportingGlobals true) _ _) .empty =
    otherEnding at ends ⊢
  cases ends with
  | value modules match_ =>
    cases succeeds
    exact ⟨_, rfl, onlyAdds_of_matches match_ modules.1⟩
  | reason => cases succeeds
  | excused => cases succeeds

/-- Reading the root first changes nothing of what the runs come to. -/
theorem AddsGlobals.read {first second : Invocation} (adds : project.AddsGlobals first second)
    (path : Path) :
    project.AddsGlobals
      { first with graph.trace := first.graph.trace ++ [.read path] }
      { second with graph.trace := second.graph.trace ++ [.read path] } := by
  intro file succeeds
  obtain ⟨other, ends, only⟩ := adds file succeeds
  exact ⟨other, ends, { only with tables := only.tables }⟩

/-- Exporting global names only adds entries. A text or a file that is processed without them is
processed with them as well: the same files are compiled in the same order, and their tables have
the same entries and global names besides, but for entries that are composed of an alias whose place
a global name takes. The sheets are the same where no symbol stands for such an entry, behind the
rule that lists the exports. -/
theorem exporting_globals_only_adds (workspace : Workspace) (path : String) :
    (∀ source,
      AddsGlobals
        ⟨workspace.exportingGlobals false, workspace.files.directory.resolve path, source⟩
        (processSource (workspace.exportingGlobals false) path source)
        (processSource (workspace.exportingGlobals true) path source)) ∧
    AddsGlobals
      ⟨workspace.exportingGlobals false, workspace.files.directory.resolve path,
        (workspace.files.read (workspace.files.directory.resolve path)).toOption.getD ""⟩
      (processFile (workspace.exportingGlobals false) path)
      (processFile (workspace.exportingGlobals true) path) := by
  refine ⟨fun source =>
    run_exportingGlobals ⟨workspace.exportingGlobals false, _, source⟩, ?_⟩
  unfold processFile
  simp only [show ∀ exported, (workspace.exportingGlobals exported).files = workspace.files from
    fun _ => rfl]
  cases workspace.files.read (workspace.files.directory.resolve path) with
  | error reason => exact fun file succeeds => nomatch succeeds
  | ok source =>
    exact (run_exportingGlobals ⟨workspace.exportingGlobals false, _, source⟩).read _

/-- A page that composes a class of another file, with global names in both. -/
def frontPage : Workspace where
  options := { Options.standard with namePattern := .template "[local]" }
  files := .ofList .top [
    ("/page", ":import('./base')\x7bbox:base\x7d.page\x7bcomposes:box\x7d:global(.wide)\x7b\x7d"),
    ("/base", ":global(.dark) .base\x7b\x7d")]
  resolver := .nearest

theorem frontPage_gains_wide :
    let first := processFile (frontPage.exportingGlobals false) "/page"
    let second := processFile (frontPage.exportingGlobals true) "/page"
    let path := frontPage.files.directory.resolve "/page"
    let project : Project := ⟨frontPage.exportingGlobals false, path,
      (frontPage.files.read path).toOption.getD ""⟩
    first.outcome.toOption.map (·.tokens.keys) = some ["page"] ∧
    second.outcome.toOption.map (·.tokens.keys) = some ["page", "wide"] ∧
    ∃ file other, first.outcome = .ok file ∧ second.outcome = .ok other ∧
      project.OnlyAdds first second file other ∧ other.css = file.css := by
  intro first second path project
  have keys : first.outcome.toOption.map (·.tokens.keys) = some ["page"] := by decide +kernel
  refine ⟨keys, by decide +kernel, ?_⟩
  obtain ⟨file, succeeds⟩ : ∃ file, first.outcome = .ok file := by
    cases ends : first.outcome with
    | error halt => simp [ends, Except.toOption] at keys
    | ok file => exact ⟨file, rfl⟩
  obtain ⟨other, otherSucceeds, only⟩ :=
    (exporting_globals_only_adds frontPage "/page").2 file succeeds
  refine ⟨file, other, succeeds, otherSucceeds, only, ?_⟩
  have apart : ∀ path ∈ project.root :: project.workspace.files.contents.keys,
      ∀ reference ∈ (project.declared path).imports,
        ¬ (project.exporting.declared path).table.contains reference.localName := by
    decide +kernel
  have steady : project.Steady file.path :=
    (nothing_differs fun _ => not_shadows_of_files apart).2 file.path
  obtain ⟨sheet, css, otherCss⟩ := only.css steady nofun
  rw [css, otherCss]
  rfl

/-- A class that is composed of an imported one, whose alias is also a global name. -/
def shadowing : Workspace where
  options := { Options.standard with namePattern := .template "[local]" }
  files := .ofList .top [
    ("/a", ":import('./b')\x7bfoo:bar\x7d.a\x7bcomposes:foo\x7d:global(.foo)\x7b\x7d"),
    ("/b", ".bar\x7b\x7d")]
  resolver := .nearest

/-- With global names exported, the class is composed of the global name instead; and a rule that
lists the exports lists global names. -/
theorem exported_global_takes_place_of_alias :
    let listing : Workspace :=
      { shadowing with options := { shadowing.options with emitExportRule := true } }
    let sheet := ":global(.wide)\x7b\x7d"
    (processFile (shadowing.exportingGlobals false) "/a").outcome.toOption.map
        (·.tokens.get? "a") = some (some ⟨"a", ["bar"], .localName, false, true⟩) ∧
      (processFile (shadowing.exportingGlobals true) "/a").outcome.toOption.map
        (·.tokens.get? "a") = some (some ⟨"a", ["foo"], .localName, true, false⟩) ∧
      (processSource (listing.exportingGlobals false) "/c" sheet).outcome.toOption.map (·.css) =
        some ":export\x7b\x7d.wide\x7b\x7d" ∧
      (processSource (listing.exportingGlobals true) "/c" sheet).outcome.toOption.map (·.css) =
        some ":export\x7bwide:wide\x7d.wide\x7b\x7d" := by
  decide +kernel

end ScopedStyles.Project
