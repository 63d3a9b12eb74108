import ScopedStyles.Proofs.Composition.Names
import ScopedStyles.Proofs.Graph.Running

/-!
The files of a project in a graph: every slot belongs to a file of the project, and what is known
about the file has developed from what its text declares.
-/

namespace ScopedStyles

open Compiling

namespace Project

def run (project : Project) : Invocation :=
  Processing.run project.workspace project.root project.source

variable {project : Project} {graph : Graph} {path : Path}

/-- What holds of the root, of the files that can be read and of files without declarations holds
of all files. -/
theorem forall_of_files {good : Path → Prop} (none : ∀ path, project.records path = [] → good path)
    (root : good project.root)
    (files : ∀ file ∈ project.workspace.files.contents.entries, good file.1) (path : Path) :
    good path := by
  by_cases isRoot : path = project.root
  · exact isRoot ▸ root
  cases found : project.workspace.files.contents.get? path with
  | some source => exact files _ (OrderedMap.mem_entries_of_get? found)
  | none =>
    have text : project.text path = "" := by
      rw [Project.text, if_neg isRoot, Files.read, found]
      rfl
    have blank : parse "" = [] := by decide +kernel
    apply none path
    rw [records, text, blank]
    rfl

structure Follows (project : Project) (graph : Graph) : Prop where
  filed : ∀ site slot, graph.slots.get? site = some slot → ∃ path, site = .file path ∧
    (∀ compiled, slot = .finished compiled → compiled.path = path) ∧
    (project.declared path).Develops (fun _ => False) slot.state

theorem follows_empty : project.Follows .empty where
  filed _ _ found := by cases found

theorem declared_of_text {source : String} (text : project.text path = source) {sheet : Stylesheet}
    (collects : (project.workspace.collection path source).1 = .ok sheet) :
    (project.workspace.collection path source).2.state =
      (project.declared path).settleLiterals
        ((project.declared path).imports.map ImportReference.localName) := by
  subst text
  exact (Collect.run_of_ok _ collects).2

theorem imported?_of_resolve {specifier name : String} {target : Path}
    (means : project.workspace.resolver.resolve project.workspace.files specifier path =
      .ok target) : project.imported? path specifier name = some (target, name) := by
  rw [imported?, means]
  rfl

theorem text_of_read {source : String} (different : path ≠ project.root)
    (readable : project.workspace.files.read path = .ok source) : project.text path = source := by
  rw [text, if_neg different, readable]
  rfl

theorem ne_root_of_absent (rooted : graph.has project.root)
    (absent : graph.slots.get? (.file path) = none) : path ≠ project.root := by
  rintro rfl
  rw [Graph.has, OrderedMap.contains, absent] at rooted
  cases rooted

namespace Follows

theorem congr {after : Graph} (follows : project.Follows graph)
    (slots : after.slots = graph.slots) : project.Follows after where
  filed := by
    rw [slots]
    exact follows.filed

theorem site_of_finished (follows : project.Follows graph) {site : Site}
    {compiled : CompiledModule} (found : graph.slots.get? site = some (.finished compiled)) :
    site = .file compiled.path := by
  rcases follows.filed _ _ found with ⟨path, isFile, same, _⟩
  rw [isFile, same compiled rfl]

theorem develops_of_isOpen (follows : project.Follows graph) (isOpen : graph.IsOpen (.file path)) :
    (project.declared path).Develops (fun _ => False) (graph.stateAt (.file path)) := by
  rcases isOpen with ⟨state, found⟩
  rcases follows.filed _ _ found with ⟨_, equal, _, develops⟩
  cases equal
  rw [Graph.stateAt_of_get? found]
  exact develops

theorem compositionsOf (follows : project.Follows graph) (isOpen : graph.IsOpen (.file path))
    (owner : String) : (graph.stateAt (.file path)).compositionsOf owner =
      (project.declared path).compositionsOf owner := by
  unfold ModuleState.compositionsOf
  rw [(follows.develops_of_isOpen isOpen).sameDeclarations.compositions]

theorem file_of_isOpen (follows : project.Follows graph) {site : Site}
    (isOpen : graph.IsOpen site) : ∃ path, site = .file path := by
  rcases isOpen with ⟨state, found⟩
  rcases follows.filed _ _ found with ⟨path, isFile, _⟩
  exact ⟨path, isFile⟩

theorem replace {after : Graph} {slot : Slot} (follows : project.Follows graph)
    (slots : ∀ site, after.slots.get? site =
      if site = .file path then some slot else graph.slots.get? site)
    (filed : ∀ compiled, slot = .finished compiled → compiled.path = path)
    (develops : (project.declared path).Develops (fun _ => False) slot.state) :
    project.Follows after where
  filed site other found := by
    rw [slots] at found
    split at found
    · rename_i equal
      cases found
      exact ⟨path, equal, filed, develops⟩
    · exact follows.filed site other found

theorem setState {kept : String → Prop} {later : ModuleState} (follows : project.Follows graph)
    (isOpen : graph.IsOpen (.file path)) (change : (graph.stateAt (.file path)).Change kept later) :
    project.Follows (graph.setState (.file path) later) :=
  follows.replace (graph.get?_setState (.file path) · later) nofun
    ((follows.develops_of_isOpen isOpen).trans (.single (change.mono fun _ => False.elim)))

theorem opening (follows : project.Follows graph) {source : String}
    (text : project.text path = source) {sheet : Stylesheet}
    (collects : (project.workspace.collection path source).1 = .ok sheet) :
    project.Follows (graph.opening project.workspace path source) := by
  refine follows.replace (graph.get?_opening project.workspace path source) nofun ?_
  change ModuleState.Develops _ _ (project.workspace.collection path source).2.state
  rw [declared_of_text text collects]
  exact .single (.settled _)

theorem closing (follows : project.Follows graph) (isOpen : graph.IsOpen (.file path))
    (sheet : Stylesheet) : project.Follows (graph.closing project.workspace path sheet) := by
  refine follows.replace (graph.get?_closing project.workspace path sheet) ?_
    (follows.develops_of_isOpen isOpen)
  rintro _ ⟨⟩
  rfl

end Follows

end Project

end ScopedStyles
