import ScopedStyles.Proofs.Graph.Results
import ScopedStyles.Proofs.Module.Marks

/-!
The names that a file exports are the names that are printed. Printing and exporting take different
ways: a head is printed when the first pass meets it, while the entry of its name goes through
everything that the file declares and composes. Only a text that the file gives the same name takes
the place of the entry.
-/

namespace ScopedStyles

open Compiling

namespace CompiledModule

/-- What is printed of a text is its marked heads, with every local name scoped, and every local
name that the text gives to nothing else is exported as it is printed. -/
structure Agrees (workspace : Workspace) (path : Path) (source : String)
    (compiled : CompiledModule) : Prop where
  printed : ∃ sheet, Node.headsAll false sheet =
      (Collect.sheetMarks (workspace.context path source) (parse source)).map
        (Collect.MarkedHead.render (workspace.context path source).scopedName) ∧
    compiled.sheet = if workspace.options.removeEmptyRules then Node.pruneAll sheet else sheet
  shown : Appear ((Node.headsAll false compiled.sheet).map Node.Head.text)
    (render compiled.sheet).toList
  exported : ∀ head ∈ Collect.sheetMarks (workspace.context path source) (parse source),
    ∀ name ∈ head.localNames, ∃ entry, compiled.table.get? name = some entry ∧
      (entry.primary = (workspace.context path source).scopedName name ∧ entry.kind = .localName ∨
        entry.isLiteral ∧
          Collect.WritesText (workspace.context path source) (parse source) name)

variable {workspace : Workspace} {path : Path} {source : String} {compiled : CompiledModule}

theorem Agrees.sublist (agrees : compiled.Agrees workspace path source) :
    (Node.headsAll false compiled.sheet).Sublist
      ((Collect.sheetMarks (workspace.context path source) (parse source)).map
        (Collect.MarkedHead.render (workspace.context path source).scopedName)) := by
  rcases agrees.printed with ⟨sheet, heads, same⟩
  rw [same, ← heads]
  split
  · exact Node.headsAll_pruneAll false sheet
  · exact .refl _

theorem ResultOf.agrees (result : compiled.ResultOf workspace path source) :
    compiled.Agrees workspace path source := by
  rcases result with ⟨develops, _, sheet, collects, closed⟩
  rcases Collect.run_of_ok (workspace.context path source) collects with ⟨printed, settled⟩
  refine ⟨⟨Substitution.nodes compiled.state sheet, ?_, ?_⟩, ?_, ?_⟩
  · rw [Node.headsAll_substitution, printed]
    exact Collect.heads_printedSheet (workspace.context path source) (parse source)
  · rw [closed]
    rfl
  · rw [render, String.toList_ofList]
    exact Node.appear_headsAll false compiled.sheet
  · intro head marked name isLocal
    have settles : (Collect.declaredState (workspace.context path source) (parse source)).Develops
        (fun _ => False) (workspace.collection path source).2.state := by
      rw [Workspace.collection, settled]
      exact .single (.settled _)
    exact Collect.exported_of_develops _ marked isLocal (settles.trans develops)

end CompiledModule

namespace Graph

/-- A compilation that succeeds, in any graph, exports the names that it prints; so does every
file that it takes along. -/
theorem exports_agree_with_print {workspace : Workspace} {path : Path} {source : String}
    {graph after : Graph} {compiled : CompiledModule} (filed : graph.Filed)
    (succeeds : outcome (compile workspace path source) graph = (.ok compiled, after)) :
    compiled.Agrees workspace path source ∧
      ∀ other, after.slots.get? (.file other.path) = some (.finished other) →
        other.path ≠ path → graph.slots.get? (.file other.path) = none →
        ∃ text, workspace.files.read other.path = .ok text ∧
          other.Agrees workspace other.path text := by
  rcases resultOf_compiles (compiles_filing filed) succeeds with ⟨result, _, _, others⟩
  refine ⟨result.agrees, ?_⟩
  intro other found different absent
  rcases others other found different absent with ⟨text, readable, result⟩
  exact ⟨text, readable, result.agrees⟩

/-- A single file, with names that show what they are made from. -/
def alone : Workspace where
  options := { Options.standard with namePattern := .template "[name]_[local]" }
  files := .ofList .top []
  resolver := .nearest

theorem exports_of_card :
    let source := "@keyframes k\x7bto\x7btop:0\x7d\x7d.a #b\x7bcolor:red\x7d.c\x7bcomposes:a\x7d"
    ∃ compiled after, Graph.empty.Filed ∧
      outcome (compile alone (.parse "/x.css") source) .empty = (.ok compiled, after) ∧
      compiled.Agrees alone (.parse "/x.css") source ∧
      render compiled.sheet =
        "@keyframes x_k\x7bto\x7btop:0\x7d\x7d.x_a #x_b\x7bcolor:red\x7d.x_c\x7b\x7d" := by
  intro source
  have prints : ((outcome (compile alone (.parse "/x.css") source) .empty).1.toOption.map
      fun compiled => render compiled.sheet) =
        some "@keyframes x_k\x7bto\x7btop:0\x7d\x7d.x_a #x_b\x7bcolor:red\x7d.x_c\x7b\x7d" := by
    decide +kernel
  cases succeeds : outcome (compile alone (.parse "/x.css") source) .empty with
  | mk result after =>
    rw [succeeds] at prints
    cases result with
    | error halt => cases prints
    | ok compiled =>
      exact ⟨compiled, after, .empty, rfl, (exports_agree_with_print .empty succeeds).1,
        Option.some.inj prints⟩

/-- A value of the same name takes the place of a class that has been printed. -/
theorem value_replaces_class :
    ¬ ∀ (workspace : Workspace) (path : Path) (source : String) (compiled : CompiledModule)
        (after : Graph),
      outcome (compile workspace path source) .empty = (.ok compiled, after) →
      ∀ head ∈ Collect.sheetMarks (workspace.context path source) (parse source),
        ∀ name ∈ head.localNames, ∃ entry, compiled.table.get? name = some entry ∧
          entry.primary = (workspace.context path source).scopedName name := by
  intro claim
  have runs : ((outcome (compile alone (.parse "/x.css") ".a\x7b\x7d@value a:red;")
        .empty).1.toOption.map fun compiled =>
          (compiled.table.get? "a").map TokenEntry.primary) = some (some "red") ∧
      (∃ head ∈ Collect.sheetMarks (alone.context (.parse "/x.css") ".a\x7b\x7d@value a:red;")
        (parse ".a\x7b\x7d@value a:red;"), "a" ∈ head.localNames) ∧
      (alone.context (.parse "/x.css") ".a\x7b\x7d@value a:red;").scopedName "a" = "x_a" := by
    decide +kernel
  rcases runs with ⟨entry, ⟨head, marked, isLocal⟩, generated⟩
  cases succeeds : outcome (compile alone (.parse "/x.css") ".a\x7b\x7d@value a:red;") .empty with
  | mk result after =>
    rw [succeeds] at entry
    cases result with
    | error halt => cases entry
    | ok compiled =>
      rcases claim _ _ _ compiled after succeeds head marked "a" isLocal with
        ⟨found, isEntry, primary⟩
      have written : (compiled.table.get? "a").map TokenEntry.primary = some "red" :=
        Option.some.inj entry
      rw [isEntry, Option.map_some, primary, generated] at written
      exact absurd (Option.some.inj written) (by decide)

end Graph

end ScopedStyles
