import ScopedStyles.Batch.Run
import ScopedStyles.Proofs.Batch.Trees

/-!
The files that a batch writes into its output directory. An input below the working directory goes
to the place that it has there, all others go by their file names. As long as no input climbs out of
the working directory by double dots, all results lie inside the output directory, and two of them
share a place only if the inputs do, if one input has the name of another with `.json` at its end, or
if an input from elsewhere has the name of one that lies directly in the working directory or of
another one from elsewhere.
-/

namespace ScopedStyles

open WrittenPath (place join steps isAbsolute behind? fileName? inner? parts names EndsIn)

/-! ## The inputs of a batch -/

namespace Batch

theorem addInputs_cons (inputs : List String) (first : String) (rest : List String) :
    addInputs inputs (first :: rest) =
      addInputs (if inputs.any fun other => steps other = steps first then inputs
        else inputs ++ [first]) rest :=
  rfl

theorem mem_addInputs {inputs paths : List String} {path : String}
    (member : path ∈ addInputs inputs paths) : path ∈ inputs ∨ path ∈ paths := by
  induction paths generalizing inputs with
  | nil => exact .inl member
  | cons first rest inductive_step =>
      rw [addInputs_cons] at member
      rcases inductive_step member with earlier | later
      · split at earlier
        · exact .inl earlier
        · rcases List.mem_append.mp earlier with earlier | same
          · exact .inl earlier
          · exact .inr (List.mem_singleton.mp same ▸ List.mem_cons_self)
      · exact .inr (List.mem_cons_of_mem _ later)

theorem mem_foldl_addInputs {expanded : List (List String)} {inputs : List String} {path : String}
    (member : path ∈ expanded.foldl addInputs inputs) :
    path ∈ inputs ∨ ∃ paths ∈ expanded, path ∈ paths := by
  induction expanded generalizing inputs with
  | nil => exact .inl member
  | cons first rest inductive_step =>
      rcases inductive_step member with earlier | ⟨paths, among, later⟩
      · rcases mem_addInputs earlier with earlier | new
        · exact .inl earlier
        · exact .inr ⟨first, List.mem_cons_self, new⟩
      · exact .inr ⟨paths, List.mem_cons_of_mem _ among, later⟩

theorem pairwise_addInputs {inputs : List String} (paths : List String)
    (apart : inputs.Pairwise fun left right => steps left ≠ steps right) :
    (addInputs inputs paths).Pairwise fun left right => steps left ≠ steps right := by
  induction paths generalizing inputs with
  | nil => exact apart
  | cons first rest inductive_step =>
      rw [addInputs_cons]
      refine inductive_step ?_
      split
      · exact apart
      · case isFalse unknown =>
          refine List.pairwise_append.mpr ⟨apart, List.pairwise_singleton _ _, ?_⟩
          intro other member last isLast same
          rw [List.mem_singleton.mp isLast] at same
          exact unknown (List.any_eq_true.mpr ⟨other, member, decide_eq_true same⟩)

theorem isFile_of_expandInput {tree : Tree} {directory input path : String} {paths : List String}
    (expanded : expandInput tree directory input = .ok paths) (member : path ∈ paths) :
    tree.isFile path := by
  simp only [expandInput] at expanded
  split at expanded
  · split at expanded
    · case h_1 found matched =>
        cases expanded
        obtain ⟨parts, -, listed⟩ := Option.map_eq_some_iff.mp matched
        split at listed
        · subst listed
          cases member
        · subst listed
          exact (List.mem_filter.mp member).2
    · cases expanded
  · split at expanded
    · case isTrue isFile =>
        cases expanded
        exact List.mem_singleton.mp member ▸ isFile
    · cases expanded

theorem mem_of_mapM_eq_ok {transform : α → Except ε β} {items : List α} {results : List β}
    {result : β} (mapped : items.mapM transform = .ok results) (member : result ∈ results) :
    ∃ item ∈ items, transform item = .ok result := by
  induction items generalizing results with
  | nil =>
      cases mapped
      cases member
  | cons item rest inductive_step =>
      rw [List.mapM_cons] at mapped
      cases first : transform item with
      | error failure => simp [first, bind, Except.bind] at mapped
      | ok value =>
          cases others : rest.mapM transform with
          | error failure => simp [first, others, bind, Except.bind] at mapped
          | ok values =>
              obtain rfl : value :: values = results := by
                simpa [first, others, bind, Except.bind, pure, Except.pure] using mapped
              rcases List.mem_cons.mp member with rfl | member
              · exact ⟨item, List.mem_cons_self, first⟩
              · obtain ⟨source, among, made⟩ := inductive_step others member
                exact ⟨source, List.mem_cons_of_mem _ among, made⟩

theorem expandInputs_eq_ok {tree : Tree} {directory : String} {patterns inputs : List String}
    (expanded : expandInputs tree directory patterns = .ok inputs) :
    ∃ lists, patterns.mapM (expandInput tree directory) = .ok lists ∧
      inputs = lists.foldl addInputs [] := by
  cases listed : patterns.mapM (expandInput tree directory) with
  | error failure => simp [expandInputs, listed, bind, Except.bind] at expanded
  | ok lists =>
      refine ⟨lists, rfl, ?_⟩
      simp only [expandInputs, listed, bind, Except.bind] at expanded
      split at expanded
      · cases expanded
      · cases expanded
        rfl

theorem isFile_of_expandInputs {tree : Tree} {directory input : String}
    {patterns inputs : List String} (expanded : expandInputs tree directory patterns = .ok inputs)
    (member : input ∈ inputs) : tree.isFile input := by
  obtain ⟨lists, listed, rfl⟩ := expandInputs_eq_ok expanded
  rcases mem_foldl_addInputs member with none | ⟨paths, among, member⟩
  · cases none
  · obtain ⟨pattern, -, expanded⟩ : ∃ pattern ∈ patterns,
        expandInput tree directory pattern = .ok paths :=
      mem_of_mapM_eq_ok listed among
    exact isFile_of_expandInput expanded member

theorem pairwise_expandInputs {tree : Tree} {directory : String} {patterns inputs : List String}
    (expanded : expandInputs tree directory patterns = .ok inputs) :
    inputs.Pairwise fun left right => steps left ≠ steps right := by
  obtain ⟨lists, listed, rfl⟩ := expandInputs_eq_ok expanded
  suffices kept : ∀ start : List String,
      start.Pairwise (fun left right => steps left ≠ steps right) →
      (lists.foldl addInputs start).Pairwise fun left right => steps left ≠ steps right from
    kept [] .nil
  clear listed expanded
  induction lists with
  | nil => exact fun _ apart => apart
  | cons paths rest inductive_step =>
      exact fun start apart => inductive_step (addInputs start paths) (pairwise_addInputs paths apart)

end Batch

/-! ## Output paths -/

namespace OutputPaths

/-- The paths of the files that are written. -/
def all (paths : OutputPaths) : List String :=
  paths.css.toList ++ [paths.exported]

/-- The place of an input's results inside the output directory, unless it leads out of there. -/
def mirrored? (directory input : String) : Option Place :=
  inner? (below directory input)

/-- The place of the exports beside the sheet at a place. -/
def exportsBeside (place : Place) : Place :=
  place.dropLast ++ [place.getLast?.getD "" ++ ".json"]

@[simp] theorem exportsBeside_append (front : Place) (name : String) :
    exportsBeside (front ++ [name]) = front ++ [name ++ ".json"] := by
  simp [exportsBeside]

theorem exportsBeside_below {inner : Place} (filled : inner ≠ []) (base : Place) :
    exportsBeside (base ++ inner) = base ++ exportsBeside inner := by
  rcases inner.eq_nil_or_concat with rfl | ⟨front, name, rfl⟩
  · exact absurd rfl filled
  · rw [List.concat_eq_append, ← List.append_assoc, exportsBeside_append, exportsBeside_append,
      List.append_assoc]

theorem place_eq_of_behind? {directory input relative : String} {inner : Place}
    (absoluteDirectory : isAbsolute directory) (absolute : isAbsolute input)
    (behind : behind? directory input = some relative)
    (mirrored : mirrored? directory input = some inner) :
    place input = place directory ++ inner := by
  obtain ⟨-, shared, -⟩ :=
    WrittenPath.behind?_of_isAbsolute absoluteDirectory absolute behind
  have inside : inner? relative = some inner := by
    simpa [mirrored?, below, behind] using mirrored
  calc place input
      = (names (parts input)).foldl WrittenPath.settle [] :=
        (WrittenPath.foldl_settle_names [] (parts input)).symm
    _ = (names (parts relative)).foldl WrittenPath.settle (place directory) := by
        rw [shared, List.foldl_append, WrittenPath.foldl_settle_names [] (parts directory)]
        rfl
    _ = place directory ++ inner := by
        rw [WrittenPath.foldl_settle_names, WrittenPath.foldl_settle_of_inner? inside]

theorem mirrored?_of_not_behind {directory input name : String} (absolute : isAbsolute input)
    (ends : EndsIn input name) (elsewhere : behind? directory input = none) :
    mirrored? directory input = some [name] := by
  rw [mirrored?, below, elsewhere]
  change inner? ((fileName? input).getD "") = _
  rw [ends.fileName? absolute]
  exact WrittenPath.inner?_of_isEntry ends.1 ends.not_mem

/-- The written part of a mirrored input is relative and ends as the input does. -/
theorem below_of_mirrored? {directory input name : String} {inner : Place}
    (absoluteDirectory : isAbsolute directory) (absolute : isAbsolute input)
    (ends : EndsIn input name) (mirrored : mirrored? directory input = some inner)
    (proper : inner ≠ []) :
    isAbsolute (below directory input) = false ∧ EndsIn (below directory input) name := by
  cases behind : behind? directory input with
  | none =>
      have named : below directory input = name := by
        rw [below, behind]
        change (fileName? input).getD "" = name
        rw [ends.fileName? absolute]
        rfl
      rw [named]
      refine ⟨?_, WrittenPath.endsIn_of_isEntry ends.1 ends.not_mem⟩
      rw [← Bool.not_eq_true]
      intro leading
      obtain ⟨body, split, -⟩ := WrittenPath.parts_of_isAbsolute leading
      rw [WrittenPath.parts_of_not_mem ends.not_mem] at split
      cases split
      exact absurd ends.1 (by decide)
  | some relative =>
      obtain ⟨isRelative, -, ending⟩ :=
        WrittenPath.behind?_of_isAbsolute absoluteDirectory absolute behind
      rw [mirrored?] at mirrored
      simp only [below, behind] at mirrored ⊢
      refine ⟨isRelative, ?_⟩
      rcases ending with rfl | ending
      · cases mirrored
        exact absurd rfl proper
      · exact ending name ends

/-- The sheet and the exports of a mirrored input lie beside each other in the output directory. -/
theorem places_of_mirrored? {directory input name : String} {inner : Place}
    (absoluteDirectory : isAbsolute directory) (absolute : isAbsolute input)
    (ends : EndsIn input name) (mirrored : mirrored? directory input = some inner)
    (proper : inner ≠ []) (output : String) :
    (ofInput input directory (some output)).all.map place =
      [place (join directory output) ++ inner,
        place (join directory output) ++ exportsBeside inner] := by
  obtain ⟨isRelative, ending⟩ := below_of_mirrored? absoluteDirectory absolute ends mirrored proper
  obtain ⟨front, split, lengthened⟩ :=
    ending.inner?_append (by decide : '/' ∉ ".json".toList) (by decide) mirrored
  have filled : below directory input ≠ "" := by
    intro empty
    rw [mirrored?, empty] at mirrored
    cases mirrored
    exact proper rfl
  have longer : isAbsolute (below directory input ++ ".json") = false := by
    rw [WrittenPath.isAbsolute_append filled, isRelative]
  have sheet := WrittenPath.place_join_of_inner? isRelative mirrored (join directory output)
  have exported := WrittenPath.place_join_of_inner? longer lengthened (join directory output)
  rw [← WrittenPath.join_append filled] at exported
  rw [split, exportsBeside_append, ← split]
  simp only [ofInput, all, Option.toList_some, List.singleton_append, List.map_cons, List.map_nil,
    sheet, exported]

/-! ## Collisions -/

theorem exportsBeside_ne {place : Place} (filled : place ≠ []) : exportsBeside place ≠ place := by
  rcases place.eq_nil_or_concat with rfl | ⟨front, name, rfl⟩
  · exact absurd rfl filled
  · rw [List.concat_eq_append, exportsBeside_append]
    intro same
    obtain ⟨-, longer⟩ := List.append_inj' same rfl
    have lengths := congrArg String.length (List.cons.inj longer).1
    rw [String.length_append, show ".json".length = 5 from rfl] at lengths
    omega

theorem exportsBeside_inj {left right : Place} (leftFilled : left ≠ []) (rightFilled : right ≠ []) :
    exportsBeside left = exportsBeside right ↔ left = right := by
  refine ⟨fun same => ?_, fun same => same ▸ rfl⟩
  rcases left.eq_nil_or_concat with rfl | ⟨leftFront, leftName, rfl⟩
  · exact absurd rfl leftFilled
  · rcases right.eq_nil_or_concat with rfl | ⟨rightFront, rightName, rfl⟩
    · exact absurd rfl rightFilled
    · simp only [List.concat_eq_append, exportsBeside_append] at same ⊢
      obtain ⟨rfl, longer⟩ := List.append_inj' same rfl
      rw [(String.append_left_inj ".json").mp (List.cons.inj longer).1]

def AreApart (directory left right : String) : Prop :=
  mirrored? directory left ≠ mirrored? directory right ∧
    mirrored? directory left ≠ (mirrored? directory right).map exportsBeside ∧
    (mirrored? directory left).map exportsBeside ≠ mirrored? directory right

instance (directory left right : String) : Decidable (AreApart directory left right) :=
  inferInstanceAs (Decidable (_ ∧ _ ∧ _))

/-- What is written for an input lies where the input is mirrored. -/
def IsMirrored (directory output input : String) : Prop :=
  ∃ inner, mirrored? directory input = some inner ∧ inner ≠ [] ∧
    (ofInput input directory (some output)).all.map place =
      [place (join directory output) ++ inner, place (join directory output) ++ exportsBeside inner]

theorem IsMirrored.inside {directory output input path : String}
    (mirrored : IsMirrored directory output input)
    (member : path ∈ (ofInput input directory (some output)).all) :
    ∃ inner, inner ≠ [] ∧ place path = place (join directory output) ++ inner := by
  obtain ⟨inner, -, filled, places⟩ := mirrored
  have among : place path ∈ (ofInput input directory (some output)).all.map place :=
    List.mem_map_of_mem member
  rw [places] at among
  rcases List.mem_cons.mp among with same | among
  · exact ⟨inner, filled, same⟩
  · exact ⟨exportsBeside inner, by simp [exportsBeside], List.mem_singleton.mp among⟩

theorem IsMirrored.pairwise {directory output input : String}
    (mirrored : IsMirrored directory output input) :
    ((ofInput input directory (some output)).all.map place).Pairwise (· ≠ ·) := by
  obtain ⟨inner, -, filled, places⟩ := mirrored
  rw [places]
  simpa using (exportsBeside_ne filled).symm

theorem IsMirrored.areApart_iff {directory output left right : String}
    (mirroredLeft : IsMirrored directory output left)
    (mirroredRight : IsMirrored directory output right) :
    (∀ first ∈ (ofInput left directory (some output)).all.map place,
        ∀ second ∈ (ofInput right directory (some output)).all.map place, first ≠ second) ↔
      AreApart directory left right := by
  obtain ⟨innerLeft, someLeft, filledLeft, placesLeft⟩ := mirroredLeft
  obtain ⟨innerRight, someRight, filledRight, placesRight⟩ := mirroredRight
  rw [placesLeft, placesRight, AreApart, someLeft, someRight]
  have exported := exportsBeside_inj filledLeft filledRight
  simp only [List.mem_cons, List.not_mem_nil, or_false, forall_eq_or_imp, forall_eq, ne_eq,
    List.append_cancel_left_eq, Option.some.injEq, Option.map_some, exported]
  constructor
  · rintro ⟨⟨sheets, leftSheet⟩, rightSheet, -⟩
    exact ⟨sheets, leftSheet, rightSheet⟩
  · rintro ⟨sheets, leftSheet, rightSheet⟩
    exact ⟨⟨sheets, leftSheet⟩, rightSheet, sheets⟩

theorem pairwise_places_iff {directory output : String} {inputs : List String}
    (mirrored : ∀ input ∈ inputs, IsMirrored directory output input) :
    (inputs.flatMap fun input => (ofInput input directory (some output)).all).Pairwise
        (fun left right => place left ≠ place right) ↔
      inputs.Pairwise (AreApart directory) := by
  rw [← List.pairwise_map, List.map_flatMap, List.pairwise_flatMap]
  constructor
  · rintro ⟨-, apart⟩
    exact apart.imp_of_mem fun left right distinct =>
      ((mirrored _ left).areApart_iff (mirrored _ right)).mp distinct
  · intro apart
    refine ⟨fun input member => (mirrored input member).pairwise, ?_⟩
    exact apart.imp_of_mem fun left right distinct =>
      ((mirrored _ left).areApart_iff (mirrored _ right)).mpr distinct

end OutputPaths

/-! ## The results of a batch -/

namespace Batch

open OutputPaths

/-- Inputs that do not climb out of the working directory are mirrored. -/
theorem isMirrored_of_isFile {tree : Tree} {directory input : String} (sound : tree.IsSound)
    (absolute : isAbsolute directory) (working : tree.hasDirectory (place directory))
    (isFile : tree.isFile input) (enclosed : (mirrored? directory input).isSome)
    (output : String) : IsMirrored directory output input := by
  obtain ⟨absoluteInput, name, ends⟩ := sound.endsIn_of_isFile isFile
  obtain ⟨inner, mirrored⟩ := Option.isSome_iff_exists.mp enclosed
  have filled : inner ≠ [] := by
    rintro rfl
    cases behind : behind? directory input with
    | none => simp [mirrored?_of_not_behind absoluteInput ends behind] at mirrored
    | some relative =>
        -- the input would be the working directory, which is no file
        have same := place_eq_of_behind? absolute absoluteInput behind mirrored
        obtain ⟨reached, found, occupied⟩ := Tree.find?_of_isFile isFile
        have occupied : tree.hasFile (place directory) := by
          rw [← List.append_nil (place directory), ← same, ← Tree.find?_eq_place found]
          exact occupied
        exact Bool.noConfusion (working.symm.trans (sound _ occupied))
  exact ⟨inner, mirrored, filled,
    places_of_mirrored? absolute absoluteInput ends mirrored filled output⟩

/-- When no input climbs out of the working directory, the results of a batch lie inside the output
directory, and no two of them share a place exactly when no two inputs are mirrored at the same place
or at that of the other's exports. An input below the working directory is mirrored at its place
there, and one from elsewhere by its file name. -/
theorem results_mirror_inputs {tree : Tree} (sound : tree.IsSound) {directory : String}
    (absolute : isAbsolute directory) (working : tree.hasDirectory (place directory))
    {patterns inputs : List String} (expanded : expandInputs tree directory patterns = .ok inputs)
    (enclosed : ∀ input ∈ inputs, (mirrored? directory input).isSome) (output : String) :
    (∀ input ∈ inputs, ∀ path ∈ (ofInput input directory (some output)).all,
      ∃ inner, inner ≠ [] ∧ place path = place (join directory output) ++ inner) ∧
    ((inputs.flatMap fun input => (ofInput input directory (some output)).all).Pairwise
        (fun left right => place left ≠ place right) ↔
      inputs.Pairwise (AreApart directory)) ∧
    ∀ input ∈ inputs, tree.find? input = some (place input) ∧
      match behind? directory input with
      | some _ => (mirrored? directory input).map (place directory ++ ·) = some (place input)
      | none => mirrored? directory input = (fileName? input).map ([·]) := by
  have files : ∀ input ∈ inputs, tree.isFile input :=
    fun input member => isFile_of_expandInputs expanded member
  have mirrored : ∀ input ∈ inputs, IsMirrored directory output input := fun input member =>
    isMirrored_of_isFile sound absolute working (files input member) (enclosed input member) output
  refine ⟨fun input member path written => (mirrored input member).inside written,
    pairwise_places_iff mirrored, fun input member => ?_⟩
  obtain ⟨absoluteInput, name, ends⟩ := sound.endsIn_of_isFile (files input member)
  obtain ⟨reached, found, -⟩ := Tree.find?_of_isFile (files input member)
  refine ⟨Tree.find?_eq_place found ▸ found, ?_⟩
  obtain ⟨inner, someInner, -⟩ := mirrored input member
  cases behind : behind? directory input with
  | none =>
      rw [mirrored?_of_not_behind absoluteInput ends behind, ends.fileName? absoluteInput]
      rfl
  | some relative =>
      rw [someInner, place_eq_of_behind? absolute absoluteInput behind someInner]
      rfl

theorem gallery_is_mirrored :
    (["/work/src/a.css", "/work/b.css", "/themes/c.css"].flatMap fun input =>
        (ofInput input "/work" (some "dist")).all).Pairwise fun left right =>
      place left ≠ place right := by
  have expanded : expandInputs
      (.ofList [("/work/src/a.css", ""), ("/work/b.css", ""), ("/themes/c.css", "")]) "/work"
      ["src/a.css", "*.css", "/themes/c.css"] =
        .ok ["/work/src/a.css", "/work/b.css", "/themes/c.css"] := rfl
  have mirrored := results_mirror_inputs (Tree.isSound_ofList _) (by decide +kernel)
    (by decide +kernel) expanded (by decide +kernel) "dist"
  exact mirrored.2.1.mpr (by decide +kernel)

/-- An input that climbs out of the working directory takes its results out of the output
directory. -/
theorem climbing_input_leaves_directory :
    expandInputs (.ofList [("/work/b.css", ""), ("/x/a.css", "")]) "/work" ["../x/a.css"] =
        .ok ["/work/../x/a.css"] ∧
      ofInput "/work/../x/a.css" "/work" (some "dist") =
        ⟨some "/work/dist/../x/a.css", "/work/dist/../x/a.css.json"⟩ ∧
      ¬place (join "/work" "dist") <+: place "/work/dist/../x/a.css" :=
  ⟨rfl, by decide +kernel, by decide +kernel⟩

example : ¬AreApart "/work" "/x/a.css" "/work/a.css" := by decide +kernel
example : ¬AreApart "/work" "/work/a.css" "/work/a.css.json" := by decide +kernel

/-- An input written without double dots is mirrored at the names that follow the working directory. -/
theorem mirrored?_of_plain {directory input relative : String}
    (absoluteDirectory : isAbsolute directory) (absolute : isAbsolute input)
    (behind : behind? directory input = some relative) (plain : .up ∉ steps input) :
    mirrored? directory input = some (names (parts relative)) ∧
      steps input = steps directory ++ (names (parts relative)).map WrittenPath.stepOf := by
  obtain ⟨-, shared, -⟩ := WrittenPath.behind?_of_isAbsolute absoluteDirectory absolute behind
  have continued :
      steps input = steps directory ++ (names (parts relative)).map WrittenPath.stepOf := by
    rw [WrittenPath.steps_of_isAbsolute absolute, shared, List.map_append, ← List.cons_append,
      WrittenPath.steps_of_isAbsolute absoluteDirectory]
  have noUp : ".." ∉ parts relative := by
    intro member
    have kept : ".." ∈ names (parts relative) := List.mem_filter.mpr ⟨member, by decide⟩
    rw [continued] at plain
    exact plain (List.mem_append_right _ (List.mem_map_of_mem kept))
  refine ⟨?_, continued⟩
  rw [mirrored?, below, behind]
  exact WrittenPath.foldlM_settleInside?_of_not_mem noUp []

/-- The results of inputs below the working directory that are written without double dots lie apart
inside the output directory, unless an input has the name of another with `.json` at its end. -/
theorem results_of_plain_inputs {tree : Tree} (sound : tree.IsSound) {directory : String}
    (absolute : isAbsolute directory) (working : tree.hasDirectory (place directory))
    {patterns inputs : List String} (expanded : expandInputs tree directory patterns = .ok inputs)
    (inner : ∀ input ∈ inputs, (behind? directory input).isSome)
    (plain : ∀ input ∈ inputs, .up ∉ steps input)
    (unlike : ∀ left ∈ inputs, ∀ right ∈ inputs, place left ≠ exportsBeside (place right))
    (output : String) :
    (∀ input ∈ inputs, ∀ path ∈ (ofInput input directory (some output)).all,
      ∃ inner, inner ≠ [] ∧ place path = place (join directory output) ++ inner) ∧
    (inputs.flatMap fun input => (ofInput input directory (some output)).all).Pairwise
      fun left right => place left ≠ place right := by
  have files : ∀ input ∈ inputs, tree.isFile input :=
    fun input member => isFile_of_expandInputs expanded member
  have spelled : ∀ input ∈ inputs, ∃ relative, behind? directory input = some relative ∧
      mirrored? directory input = some (names (parts relative)) ∧
      steps input = steps directory ++ (names (parts relative)).map WrittenPath.stepOf := by
    intro input member
    obtain ⟨relative, behind⟩ := Option.isSome_iff_exists.mp (inner input member)
    have absoluteInput := (sound.endsIn_of_isFile (files input member)).1
    exact ⟨relative, behind, mirrored?_of_plain absolute absoluteInput behind (plain input member)⟩
  have mirrored : ∀ input ∈ inputs, IsMirrored directory output input := by
    intro input member
    obtain ⟨relative, -, someInner, -⟩ := spelled input member
    exact isMirrored_of_isFile sound absolute working (files input member)
      (Option.isSome_of_eq_some someInner) output
  have meet : ∀ left ∈ inputs, ∀ right ∈ inputs,
      mirrored? directory left ≠ (mirrored? directory right).map exportsBeside := by
    intro left memberLeft right memberRight same
    obtain ⟨_, behindLeft, someLeft, -⟩ := spelled left memberLeft
    obtain ⟨_, behindRight, someRight, -⟩ := spelled right memberRight
    obtain ⟨_, someRight', filled, -⟩ := mirrored right memberRight
    cases someRight.symm.trans someRight'
    rw [someLeft, someRight, Option.map_some, Option.some.injEq] at same
    have absoluteLeft := (sound.endsIn_of_isFile (files left memberLeft)).1
    have absoluteRight := (sound.endsIn_of_isFile (files right memberRight)).1
    refine unlike left memberLeft right memberRight ?_
    rw [place_eq_of_behind? absolute absoluteLeft behindLeft someLeft, same,
      place_eq_of_behind? absolute absoluteRight behindRight someRight,
      exportsBeside_below filled]
  refine ⟨fun input member path written => (mirrored input member).inside written,
    (pairwise_places_iff mirrored).mpr ?_⟩
  refine (pairwise_expandInputs expanded).imp_of_mem fun {left right} memberLeft memberRight differ =>
    ⟨fun same => ?_, meet left memberLeft right memberRight,
      fun same => meet right memberRight left memberLeft same.symm⟩
  obtain ⟨_, -, someLeft, stepsLeft⟩ := spelled left memberLeft
  obtain ⟨_, -, someRight, stepsRight⟩ := spelled right memberRight
  rw [someLeft, someRight, Option.some.injEq] at same
  exact differ (by rw [stepsLeft, stepsRight, same])

end Batch

end ScopedStyles
