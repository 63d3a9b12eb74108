import ScopedStyles.Proofs.Graph.Loading

/-!
What a compilation leaves behind when it succeeds, in whatever graph it was made: the result of the
text that was compiled, and the result of the text of every file that it took along.
-/

namespace ScopedStyles

open Compiling ScopedStyles.Graph

/-- Every finished file stands in its own slot. -/
def Graph.Filed (graph : Graph) : Prop :=
  ∀ site compiled, graph.slots.get? site = some (.finished compiled) → site = .file compiled.path

namespace Graph.Filed

variable {graph : Graph}

theorem empty : Graph.empty.Filed := by
  intro _ _ found
  cases found

theorem congr {after : Graph} (filed : graph.Filed) (slots : after.slots = graph.slots) :
    after.Filed := by
  intro other compiled found
  exact filed other compiled (slots ▸ found)

theorem setState (filed : graph.Filed) (site : Site) (state : ModuleState) :
    (graph.setState site state).Filed := by
  intro other compiled found
  rw [get?_setState] at found
  split at found
  · cases found
  · exact filed other compiled found

theorem opening (filed : graph.Filed) (workspace : Workspace) (path : Path) (source : String) :
    (graph.opening workspace path source).Filed := by
  intro other compiled found
  rw [get?_opening] at found
  split at found
  · cases found
  · exact filed other compiled found

theorem closing (filed : graph.Filed) (workspace : Workspace) (path : Path)
    (sheet : Stylesheet) : (graph.closing workspace path sheet).Filed := by
  intro other compiled found
  rw [get?_closing] at found
  split at found
  · rename_i isFile
    cases found
    exact isFile
  · exact filed other compiled found

end Graph.Filed

/-- The contract that finished files stand in their own slots; it admits every request and every
failure. -/
def Contract.filing (workspace : Workspace) : Contract workspace where
  keeps := Graph.Filed
  mayLoad _ _ _ := True
  mayResolve _ _ _ := True
  blames _ := True
  recorded _ keeps := keeps
  filed keeps found := keeps _ _ found
  settled _ _ keeps := keeps.setState _ _
  imported _ _ _ _ _ keeps := keeps.setState _ _
  loadable _ _ := trivial
  resolvable _ _ := trivial
  plain _ _ := trivial
  unsettled _ _ _ _ _ := trivial
  unimported _ _ _ _ := trivial

namespace Contract

variable {workspace : Workspace} {graph : Graph}

theorem mayStart_filing {path : Path} {source : String}
    (filed : (graph.opening workspace path source).Filed) :
    (filing workspace).MayStart (graph.opening workspace path source) path source where
  keeps := filed
  mayImport _ _ := ⟨trivial, fun _ _ => trivial⟩
  mayOwn _ _ := trivial

theorem meets_filing (workspace : Workspace) (depth : Nat) :
    (Compilation.calls workspace depth).Meet (filing workspace) := by
  refine Compilation.calls_meet (fun _ => filing workspace) (Compilation.exhausted_meets trivial)
    (fun _ => ⟨?_, ?_, ?_⟩) ?_ depth
  · exact fun _ blames => blames
  · exact fun keeps _ _ _ _ _ _ => mayStart_filing (keeps.opening _ _ _)
  · exact fun keeps _ _ _ _ _ => keeps.closing _ _ _
  · intro _ calls meets graph site owner keeps isOpen _
    refine Resolution.advances_resolveOwner meets keeps isOpen (fun _ blames => blames)
      (fun _ _ => True) (fun _ _ _ => trivial) ?_ ?_ ?_
    · intro entered _ enter
      refine ⟨keeps.congr (enter_eq_ok enter).2.2, trivial, fun _ _ _ _ => ?_⟩
      exact mayRefer_of_all (fun _ _ => trivial) fun _ _ => trivial
    · exact fun _ _ _ _ _ _ _ _ _ _ _ _ _ keeps _ => ⟨keeps.setState _ _, trivial⟩
    · intro after _ _ keeps _
      have left : after.leave.Filed := keeps
      exact left.setState _ _

end Contract

namespace Graph

variable {workspace : Workspace} {path : Path} {source : String} {graph after : Graph}
  {compiled : CompiledModule}

/-- A compilation that succeeds gives the result of its text, and keeps it. Every other file that it
finished is the result of the text that can be read there. -/
theorem resultOf_compiles {compiling : Compiling CompiledModule}
    (compiles : Compilation.Compiles (.filing workspace) graph path source compiling)
    (succeeds : outcome compiling graph = (.ok compiled, after)) :
    compiled.ResultOf workspace path source ∧
      after.slots.get? (.file path) = some (.finished compiled) ∧ after.Filed ∧
      ∀ other, after.slots.get? (.file other.path) = some (.finished other) →
        other.path ≠ path → graph.slots.get? (.file other.path) = none →
        ∃ text, workspace.files.read other.path = .ok text ∧
          other.ResultOf workspace other.path text := by
  unfold Compilation.Compiles Ensures at compiles
  rw [succeeds] at compiles
  rcases compiles with ⟨resolved, sheet, completes, keeps, complete, collects, rfl, rfl⟩
  refine ⟨⟨?_, complete, sheet, collects, rfl⟩, ?_, Filed.closing keeps workspace path sheet, ?_⟩
  · have develops := completes.develops (isOpen_opening graph workspace path source)
    rw [stateAt_opening] at develops
    exact develops.mono fun _ => False.elim
  · rw [get?_closing, if_pos rfl]
  · intro other found different absent
    have otherSite : Site.file other.path ≠ .file path := by
      simpa using different
    rw [get?_closing, if_neg otherSite] at found
    have absent : (graph.opening workspace path source).slots.get? (.file other.path) = none := by
      rw [get?_opening, if_neg otherSite, absent]
    rcases completes.added _ _ absent found with
      ⟨compiled, text, isFile, isFinished, readable, result⟩
    cases isFinished
    exact ⟨text, readable, result⟩

theorem compiles_filing (filed : graph.Filed) :
    Compilation.Compiles (.filing workspace) graph path source
      (Graph.compile workspace path source) :=
  Compilation.ensures_compile (Contract.meets_filing workspace _)
    fun _ _ => Contract.mayStart_filing (filed.opening workspace path source)

end Graph

end ScopedStyles
