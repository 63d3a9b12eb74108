import Mathlib.Data.List.Basic
import Mathlib.Logic.Relation
import ScopedStyles.Graph.Compilation
import ScopedStyles.Proofs.Module.Declarations

/-!
What a class stands for, read off the texts of all files: its own name, and the names of everything
that it composes. A class has names only if following its compositions ends, so classes that have
names lie on no cycle of compositions.
-/

namespace ScopedStyles

/-- Files that are compiled together: a text that is compiled as the content of the root, and the
files that can be read. -/
structure Project where
  workspace : Workspace
  root : Path
  source : String

namespace Project

variable (project : Project)

/-! ## Declarations -/

/-- The text of a file; a file that cannot be read has none. -/
def text (path : Path) : String :=
  if path = project.root then project.source
  else (project.workspace.files.read path).toOption.getD ""

def context (path : Path) : FileContext :=
  project.workspace.context path (project.text path)

def records (path : Path) : List Record :=
  Collect.sheetRecords (project.context path) (parse (project.text path))

/-- What is known about a file once its declarations have been made. -/
def declared (path : Path) : ModuleState :=
  Collect.declaredState (project.context path) (parse (project.text path))

/-- Every file introduces every name in one way only. -/
def OneWay : Prop :=
  ∀ path, Record.OneWay (project.records path)

/-! ## Compositions -/

/-- The file and the name in it that a specifier and an imported name mean. -/
def imported? (path : Path) (specifier name : String) : Option (Path × String) :=
  (project.workspace.resolver.resolve project.workspace.files specifier path).toOption.map (·, name)

/-- The class that a reference in a file means. A name of the same file that is the alias
of an import means what is imported; a name that passes through means no class. -/
def target? (path : Path) (reference : Reference) : Option (Path × String) :=
  match reference.source with
  | .sameFile =>
    match (project.declared path).importOf? reference.name with
    | some found => project.imported? path found.specifier found.imported
    | none => some (path, reference.name)
  | .passThrough => none
  | .file specifier => project.imported? path specifier reference.name

def Composes (owner class_ : Path × String) : Prop :=
  ∃ composition ∈ (project.declared owner.1).compositionsOf owner.2,
    ∃ reference ∈ composition.references, project.target? owner.1 reference = some class_

/-- The names that a composition adds when its references stand for these names: the first name of
each reference, then the others of each. -/
def added (named : Reference → List String) (composition : Composition) : List String :=
  composition.references.filterMap (fun reference => (named reference).head?) ++
    composition.references.flatMap fun reference => (named reference).tail

/-- A name of its own, followed by what compositions add, without repetition. -/
def union (primary : String) (compositions : List Composition)
    (named : Reference → List String) : List String :=
  (primary :: compositions.flatMap (added named)).eraseDups

/-- A class stands for these names. What it composes is `present`, and has names itself. -/
inductive Names (present : Path → String → Prop) : Path → String → List String → Prop where
  | union {path : Path} {name : String} (entry : TokenEntry) (named : Reference → List String)
    (declares : (project.declared path).table.get? name = some entry)
    (passes : ∀ composition ∈ (project.declared path).compositionsOf name,
      ∀ reference ∈ composition.references, reference.source = .passThrough →
        named reference = [reference.name])
    (means : ∀ composition ∈ (project.declared path).compositionsOf name,
      ∀ reference ∈ composition.references, reference.source ≠ .passThrough →
        (project.target? path reference).isSome)
    (isPresent : ∀ composition ∈ (project.declared path).compositionsOf name,
      ∀ reference ∈ composition.references, ∀ target,
        project.target? path reference = some target → present target.1 target.2)
    (refers : ∀ composition ∈ (project.declared path).compositionsOf name,
      ∀ reference ∈ composition.references, ∀ target,
        project.target? path reference = some target →
        Names present target.1 target.2 (named reference)) :
    Names present path name
      (Project.union entry.primary ((project.declared path).compositionsOf name) named)

def Means (present : Path → String → Prop) (path : Path) (reference : Reference)
    (names : List String) : Prop :=
  if reference.source = .passThrough then names = [reference.name]
  else
    ∃ target, project.target? path reference = some target ∧ present target.1 target.2 ∧
      project.Names present target.1 target.2 names

variable {project} {present : Path → String → Prop} {path : Path} {name : String}
  {names : List String}

theorem union_congr {primary : String} {compositions : List Composition}
    {named others : Reference → List String}
    (same : ∀ composition ∈ compositions, ∀ reference ∈ composition.references,
      named reference = others reference) :
    union primary compositions named = union primary compositions others := by
  have added : ∀ composition ∈ compositions,
      added named composition = added others composition := by
    intro composition member
    have heads : composition.references.filterMap (fun reference => (named reference).head?) =
        composition.references.filterMap fun reference => (others reference).head? :=
      List.filterMap_congr fun reference referred => by rw [same _ member _ referred]
    have tails : composition.references.flatMap (fun reference => (named reference).tail) =
        composition.references.flatMap fun reference => (others reference).tail :=
      List.flatMap_congr fun reference referred => by rw [same _ member _ referred]
    rw [Project.added, Project.added, heads, tails]
  rw [union, union, List.flatMap_congr added]

theorem target?_passThrough {reference : Reference} (passes : reference.source = .passThrough) :
    project.target? path reference = none := by
  simp [target?, passes]

theorem Names.plain {entry : TokenEntry}
    (declares : (project.declared path).table.get? name = some entry)
    (free : (project.declared path).compositionsOf name = []) :
    project.Names present path name [entry.primary] := by
  have derives : project.Names present path name (Project.union entry.primary
      ((project.declared path).compositionsOf name) fun _ => []) := by
    refine .union entry (fun _ => []) declares ?_ ?_ ?_ ?_ <;>
    · rw [free]
      exact nofun
  rw [free] at derives
  exact derives

theorem Names.mono {more : Path → String → Prop} (less : ∀ path name, present path name →
    more path name) (derives : project.Names present path name names) :
    project.Names more path name names := by
  induction derives with
  | union entry named declares passes means isPresent refers induction =>
    refine .union entry named declares passes means ?_ induction
    exact fun composition member reference referred target isTarget =>
      less _ _ (isPresent composition member reference referred target isTarget)

theorem Names.unique {others : List String} {present' : Path → String → Prop}
    (first : project.Names present path name names)
    (second : project.Names present' path name others) : names = others := by
  induction first generalizing others with
  | @union path name entry named declares passes means isPresent refers induction =>
    rcases second with ⟨entry', named', declares', passes', _, _, refers'⟩
    rw [declares] at declares'
    cases declares'
    refine union_congr fun composition member reference referred => ?_
    by_cases isGlobal : reference.source = .passThrough
    · rw [passes composition member reference referred isGlobal,
        passes' composition member reference referred isGlobal]
    · rcases Option.isSome_iff_exists.mp (means composition member reference referred isGlobal) with
        ⟨target, isTarget⟩
      exact induction composition member reference referred target isTarget
        (refers' composition member reference referred target isTarget)

theorem Names.acc (derives : project.Names present path name names) :
    Acc (fun class_ owner => project.Composes owner class_) (path, name) := by
  induction derives with
  | union entry named declares passes means isPresent refers induction =>
    refine .intro _ ?_
    rintro ⟨targetPath, targetName⟩ ⟨composition, member, reference, referred, isTarget⟩
    exact induction composition member reference referred _ isTarget

theorem not_self_of_acc {relation : α → α → Prop} {value : α} (accessible : Acc relation value) :
    ¬ relation value value := by
  induction accessible with
  | intro value _ induction => exact fun cycle => induction value cycle cycle

theorem Names.acyclic (derives : project.Names present path name names) :
    ¬ Relation.TransGen project.Composes (path, name) (path, name) := by
  intro cycle
  exact not_self_of_acc derives.acc.transGen (Relation.transGen_swap.mpr cycle)

theorem Names.of_means {entry : TokenEntry} {named : Reference → List String}
    (declares : (project.declared path).table.get? name = some entry)
    (means : ∀ composition ∈ (project.declared path).compositionsOf name,
      ∀ reference ∈ composition.references,
        project.Means present path reference (named reference)) :
    project.Names present path name
      (Project.union entry.primary ((project.declared path).compositionsOf name) named) := by
  refine .union entry named declares ?_ ?_ ?_ ?_
  · intro composition member reference referred isGlobal
    have stands := means composition member reference referred
    rwa [Means, if_pos isGlobal] at stands
  · intro composition member reference referred refers
    have stands := means composition member reference referred
    rw [Means, if_neg refers] at stands
    rcases stands with ⟨target, isTarget, _⟩
    rw [isTarget]
    rfl
  all_goals
    intro composition member reference referred target isTarget
    have stands := means composition member reference referred
    unfold Means at stands
    split at stands
    · rename_i isGlobal
      rw [target?_passThrough isGlobal] at isTarget
      cases isTarget
    · rcases stands with ⟨target', isTarget', isPresent, derives⟩
      cases isTarget.symm.trans isTarget'
      first
      | exact isPresent
      | exact derives

theorem Means.unique {reference : Reference} {others : List String}
    {present' : Path → String → Prop} (first : project.Means present path reference names)
    (second : project.Means present' path reference others) : names = others := by
  unfold Means at first second
  split at first
  · rename_i isGlobal
    rw [if_pos isGlobal] at second
    exact first.trans second.symm
  · rename_i refers
    rw [if_neg refers] at second
    rcases first with ⟨target, isTarget, _, derives⟩
    rcases second with ⟨target', isTarget', _, derives'⟩
    cases isTarget.symm.trans isTarget'
    exact derives.unique derives'

theorem Means.mono {more : Path → String → Prop} {reference : Reference}
    (less : ∀ path name, present path name → more path name)
    (means : project.Means present path reference names) :
    project.Means more path reference names := by
  unfold Means at *
  split at means
  · rename_i isGlobal
    rw [if_pos isGlobal]
    exact means
  · rename_i refers
    rw [if_neg refers]
    rcases means with ⟨target, isTarget, isPresent, derives⟩
    exact ⟨target, isTarget, less _ _ isPresent, derives.mono less⟩

end Project

end ScopedStyles
