import ScopedStyles.Proofs.Module.Checking
import ScopedStyles.Proofs.Module.Settling
import ScopedStyles.Proofs.Module.ValuePlaces

/-!
Imports through a value. The path is read off the value as it is written, while the file is still
walked; the text that the file's table holds for the value is made when the walk is over, with the
values before it in place of their names. The two are the same unless such a name is mentioned.
-/

namespace ScopedStyles

open Text

namespace ModuleState

variable {state : ModuleState} {blocked : List String} {literals : List (String × Literal)}
  {name : String} {literal : Literal}

/-! ## The text of a value -/

/-- The names of the literals that are settled before one. -/
def namesBefore (state : ModuleState) (name : String) : List String :=
  ((settlementOrder state.literals.entries).map Prod.fst).takeWhile (· ≠ name)

/-- A text with what stands for the literals settled before `name` in place of their names. -/
def textIn (state later : ModuleState) (name text : String) : String :=
  renameMentions
    (fun word => if word ∈ state.namesBefore name then later.symbols.get? word else none) text

theorem textIn_eq_self {later : ModuleState} {text : String}
    (firm : ∀ word ∈ mentionedNames text, word ∉ state.namesBefore name) :
    textIn state later name text = text :=
  renameMentions_eq_self fun word mentions => if_neg (firm word mentions)

section

variable {before behind : List (String × Literal)} (distinct : state.literals.keys.Nodup)
  (order : settlementOrder state.literals.entries = before ++ (name, literal) :: behind)

include distinct order

theorem nodup_order : ((before ++ (name, literal) :: behind).map Prod.fst).Nodup :=
  order ▸ nodup_settlementOrder distinct

theorem namesBefore_eq : state.namesBefore name = before.map Prod.fst := by
  have notBefore := not_mem_before (nodup_order distinct order)
  have others : ∀ other ∈ before.map Prod.fst, decide (other ≠ name) := by
    intro other member
    rw [decide_eq_true_eq]
    rintro rfl
    exact notBefore member
  rw [namesBefore, order, List.map_append, List.takeWhile_append_of_pos others, List.map_cons,
    List.takeWhile_cons_of_neg (by simp), List.append_nil]

/-- A literal that is settled gets its text as written, with the texts of the values before it in
place of their names. -/
theorem get?_table_of_free (fresh : state.symbols = .empty)
    (free : ¬ literal.dependsOn (blockedAfter blocked before)) :
    (state.settleLiterals blocked).table.get? name =
      some (.plain .literal (textIn state (state.settleLiterals blocked) name literal.raw)) := by
  have distinctOrder := nodup_order distinct order
  have notBehind : name ∉ (prompt (blockedAfter blocked before) behind).map Prod.fst :=
    fun member => not_mem_behind distinctOrder (((sublist_prompt _ _).map _).subset member)
  have alike := alike_settleLiterals (.refl state) rfl blocked
  rw [order, prompt_append, settleAll_append, prompt, if_neg free] at alike
  change Alike _ (((state.settleAll (prompt blocked before)).settle name literal).settleAll
    (prompt (blockedAfter blocked before) behind)) at alike
  have own := gives_settle_self (state.settleAll (prompt blocked before)) name literal
  have gives := alike.gives (gives_settleAll_of_not_mem notBehind own)
  refine gives.table.trans (congrArg (fun text => some (TokenEntry.plain .literal text)) ?_)
  apply renameMentions_congr
  intro word _
  rw [namesBefore_eq distinct order]
  split
  · rename_i isBefore
    have different : word ≠ name := by
      rintro rfl
      exact not_mem_before distinctOrder isBefore
    have wordNotBehind : word ∉ (prompt (blockedAfter blocked before) behind).map Prod.fst := by
      intro member
      rw [List.map_append] at distinctOrder
      have isBehind := ((sublist_prompt _ _).map Prod.fst).subset member
      exact (List.nodup_append.mp distinctOrder).2.2 word isBefore word
        (List.mem_cons_of_mem _ isBehind) rfl
    rw [alike.symbols, get?_symbols_settleAll wordNotBehind, get?_symbols_settle,
      if_neg fun same => different same.1]
  · rename_i notBefore
    have absent : word ∉ (prompt blocked before).map Prod.fst :=
      fun member => notBefore (((sublist_prompt _ _).map _).subset member)
    rw [get?_symbols_settleAll absent, fresh, OrderedMap.get?_empty]

end

end ModuleState

/-! ## Values that depend on an import -/

/-- A value depends on an import: it mentions the alias of one, or a value that depends on one. -/
inductive DependsOnImport (records : List Record) : String → Prop
  | directly {name word : String} {content : Literal} (defined : .literal name content ∈ records)
    (isValue : content.isValue) (mentions : word ∈ mentionedNames content.raw)
    (isAlias : word ∈ records.filterMap Record.alias?) : DependsOnImport records name
  | through {name other : String} {content : Literal} (defined : .literal name content ∈ records)
    (isValue : content.isValue) (mentions : other ∈ mentionedNames content.raw)
    (depends : DependsOnImport records other) : DependsOnImport records name

theorem not_dependsOnImport_of_no_mention {records : List Record} {name : String}
    (alone : ∀ content, .literal name content ∈ records → mentionedNames content.raw = []) :
    ¬ DependsOnImport records name := by
  intro depends
  cases depends with
  | directly defined _ mentions => simp [alone _ defined] at mentions
  | through defined _ mentions => simp [alone _ defined] at mentions

theorem dependsOnImport_of_mem_delayed {records : List Record} {blocked : List String}
    {literals : List (String × Literal)} {entry : String × Literal}
    (blocks : ∀ name ∈ blocked,
      name ∈ records.filterMap Record.alias? ∨ DependsOnImport records name)
    (defined : ∀ other ∈ literals, .literal other.1 other.2 ∈ records)
    (member : entry ∈ ModuleState.delayed blocked literals) (isValue : entry.2.isValue) :
    DependsOnImport records entry.1 := by
  induction literals generalizing blocked with
  | nil => cases member
  | cons first rest induction =>
    rw [List.forall_mem_cons] at defined
    rw [ModuleState.delayed] at member
    split at member
    · rename_i waits
      have firstDepends : first.2.isValue → DependsOnImport records first.1 := by
        intro isValue
        rcases Literal.dependsOn_iff.mp waits with ⟨word, mentions, blocking⟩
        rcases blocks word blocking with isAlias | depends
        · exact .directly defined.1 isValue mentions isAlias
        · exact .through defined.1 isValue mentions depends
      rcases List.mem_cons.mp member with rfl | later
      · exact firstDepends isValue
      · apply induction _ defined.2 later
        intro name blocking
        rcases ModuleState.mem_blockedBehind.mp blocking with earlier | ⟨isValue, rfl⟩
        · exact blocks name earlier
        · exact .inr (firstDepends isValue)
    · exact induction blocks defined.2 member

namespace Collect

variable {context : FileContext} {state : ModuleState} {records first second : List Record}
  {name : String} {content : Literal}

/-! ## Literals and imports that are recorded -/

theorem get?_literals_replay (absent : ∀ content, .literal name content ∉ records) :
    (records.foldl (Record.declare context) state).literals.get? name =
      state.literals.get? name := by
  induction records generalizing state with
  | nil => rfl
  | cons record rest induction =>
    rw [List.foldl_cons, induction fun content member => absent content
      (List.mem_cons_of_mem _ member)]
    cases record with
    | literal other content =>
      apply OrderedMap.get?_insert_of_ne
      rintro rfl
      exact absent content List.mem_cons_self
    | declared | passed | keyframes | imported | importedValue | composition | malformed => rfl

theorem get?_literals_replay_of_last (last : ∀ content, .literal name content ∉ second) :
    ((first ++ .literal name content :: second).foldl (Record.declare context)
      state).literals.get? name = some content := by
  rw [List.foldl_append, List.foldl_cons, get?_literals_replay last]
  exact OrderedMap.get?_insert_self _ name content

theorem imports_prefix_replay (state : ModuleState) (records : List Record) :
    state.imports <+: (records.foldl (Record.declare context) state).imports := by
  induction records generalizing state with
  | nil => exact List.prefix_refl _
  | cons record rest induction =>
    refine List.IsPrefix.trans ?_ (induction (record.declare context state))
    cases record with
    | imported | importedValue => exact List.prefix_append _ _
    | declared | passed | keyframes | literal | composition | malformed => exact List.prefix_refl _

theorem outcome_recordValue_of_value {params : String} {location : Location}
    {names : List ImportedName} {collection : Collection}
    (reads : ValueRule.parse params = some (.imports names (.value name)))
    (known : collection.state.literals.get? name = some content) (isValue : content.isValue) :
    (outcome (recordValue context params location) collection).1 = .ok () := by
  unfold recordValue
  rw [reads, outcome_bind]
  unfold valuePath
  rw [outcome_bind]
  dsimp only [outcome_get]
  rw [known]
  dsimp only
  rw [if_pos isValue]
  rfl

/-! ## What a rule imports -/

/-- The import of one name that a rule records. -/
def importFrom (specifier : String) (location : Location) (name : ImportedName) : ImportReference :=
  ⟨specifier, name.imported, name.localName, location⟩

theorem imports_recordValueImports (names : List ImportedName) (specifier : String)
    (location : Location) (state : ModuleState) :
    (names.foldl (fun later name => later.recordValueImport
        ⟨specifier, name.imported, name.localName, location⟩) state).imports =
      state.imports ++ names.map (importFrom specifier location) := by
  induction names generalizing state with
  | nil => exact (List.append_nil _).symm
  | cons name rest induction =>
    rw [List.foldl_cons, induction, List.map_cons, List.append_cons]
    rfl

/-- What comes of a rule that imports names through a value, which is written `raw`. -/
structure ReadsPath (context : FileContext) (sheet : Stylesheet) (place : ValuePlace)
    (names : List ImportedName) (name raw : String) : Prop where
  /-- The rule is recorded when the walk comes to it. -/
  recorded : (outcomeAt context .empty place).1 = .ok ()
  /-- A walk that fails for want of a path fails at another rule. -/
  elsewhere : ∀ failure, (run context sheet).1 = .error failure →
    failure.cause.kind = .resolution →
      ∃ other ∈ sheetPlaces context sheet, other ≠ place ∧
        (outcomeAt context .empty other).1 = .error failure
  /-- The path of each import is the text as written, without quotes. -/
  imports : ∀ kept, (run context sheet).1 = .ok kept →
    (place.before.foldl (Record.declare context) .empty).imports ++
      names.map (importFrom (unquote raw) place.location) <+: (run context sheet).2.state.imports
  /-- The text in the table has the texts of the values before it in place of their names. -/
  text : ∀ kept, (run context sheet).1 = .ok kept →
    (run context sheet).2.state.table.get? name = some (.plain .literal
      ((declaredState context sheet).textIn (run context sheet).2.state name raw))

section

variable {sheet : Stylesheet} {place : ValuePlace} {names : List ImportedName} {raw : String}
  {location : Location}

theorem imports_of_mem_sheetPlaces (reached : place ∈ sheetPlaces context sheet)
    (reads : ValueRule.parse place.params = some (.imports names (.value name)))
    (known : (place.before.foldl (Record.declare context) .empty).literals.get? name =
      some content) :
    (place.before.foldl (Record.declare context) .empty).imports ++
        names.map (importFrom (unquote content.raw) place.location) <+:
      (declaredState context sheet).imports := by
  have own : valueRecords place.params place.location =
      names.map (.importedValue · (.value name) place.location) := by
    rw [valueRecords, reads]
  have specifier : (ValueSource.value name).specifierIn
      (place.before.foldl (Record.declare context) .empty) = unquote content.raw := by
    rw [ValueSource.specifierIn, known]
    rfl
  rw [declaredState, ← records_of_mem_sheetPlaces reached, ValuePlace.records, List.foldl_append,
    List.foldl_append, own, ← foldl_recordValueImport, specifier, ← imports_recordValueImports]
  exact imports_prefix_replay _ place.behind

theorem get?_literals_declaredState (reached : place ∈ sheetPlaces context sheet)
    (reads : ValueRule.parse place.params = some (.imports names (.value name)))
    (defined : place.before = first ++ .literal name content :: second)
    (last : ∀ other, .literal name other ∉ second ++ place.behind) :
    (declaredState context sheet).literals.get? name = some content := by
  have own : ∀ other, .literal name other ∉ valueRecords place.params place.location := by
    simp [valueRecords, reads]
  rw [declaredState, ← records_of_mem_sheetPlaces reached, ValuePlace.records, defined,
    List.append_assoc, List.append_assoc, List.cons_append]
  apply get?_literals_replay_of_last
  intro other member
  rcases List.mem_append.mp member with isSecond | later
  · exact last other (List.mem_append_left _ isSecond)
  · rcases List.mem_append.mp later with isOwn | isBehind
    · exact own other isOwn
    · exact last other (List.mem_append_right _ isBehind)

/-- A walk that fails for want of a path does not fail at a rule that is recorded. -/
theorem exists_other_place (recorded : (outcomeAt context .empty place).1 = .ok ())
    {failure : Failure} (failed : (run context sheet).1 = .error failure)
    (kind : failure.cause.kind = .resolution) :
    ∃ other ∈ sheetPlaces context sheet, other ≠ place ∧
      (outcomeAt context .empty other).1 = .error failure := by
  cases ending : run context sheet with
  | mk result after =>
    rw [ending] at failed
    cases failed
    rcases stopsAt_sheet context sheet .empty failure after ending kind with ⟨other, listed, stops⟩
    refine ⟨other, listed, ?_, congrArg Prod.fst stops⟩
    rintro rfl
    rw [stops] at recorded
    cases recorded

/-- A value that does not depend on an import is settled when its file is collected. -/
theorem text_of_independent {kept : Stylesheet} (collected : (run context sheet).1 = .ok kept)
    (known : (declaredState context sheet).literals.get? name = some content)
    (isValue : content.isValue)
    (independent : ¬ DependsOnImport (sheetRecords context sheet) name) :
    (run context sheet).2.state.table.get? name = some (.plain .literal
      ((declaredState context sheet).textIn (run context sheet).2.state name content.raw)) := by
  have distinct : (declaredState context sheet).literals.keys.Nodup := nodup_literals_declaredState
  have listed : (name, content) ∈
      ModuleState.settlementOrder (declaredState context sheet).literals.entries :=
    ModuleState.mem_settlementOrder.mpr (OrderedMap.mem_entries_of_get? known)
  rcases List.append_of_mem listed with ⟨before, behind, order⟩
  rw [(run_of_ok context collected).2]
  apply ModuleState.get?_table_of_free distinct order symbols_declaredState
  rw [← ModuleState.mem_delayed_iff (ModuleState.nodup_order distinct order), ← order]
  intro waits
  apply independent
  refine dependsOnImport_of_mem_delayed ?_ ?_ waits isValue
  · intro word isAlias
    rw [declaredState, ModuleState.map_localName_replay] at isAlias
    exact .inl isAlias
  · intro other member
    rcases mem_literals_replay (ModuleState.mem_settlementOrder.mp member) with none | recorded
    · cases none
    · exact recorded

end

/-- A rule that imports through a value which the file defines before it, and not again behind it,
and which does not depend on an import, is recorded, with the text of the value as it is written for
the path. That is the text that the file's table holds for the value, if it mentions no value that
is settled before it. -/
theorem imports_through_values {context : FileContext} {sheet : Stylesheet} {place : ValuePlace}
    (reached : place ∈ sheetPlaces context sheet) {names : List ImportedName} {name : String}
    (reads : ValueRule.parse place.params = some (.imports names (.value name)))
    {first second : List Record} {raw : String} {location : Location}
    (defined : place.before = first ++ .literal name ⟨raw, true, location⟩ :: second)
    (last : ∀ content, .literal name content ∉ second ++ place.behind)
    (independent : ¬ DependsOnImport (sheetRecords context sheet) name) :
    ReadsPath context sheet place names name raw ∧
      ((∀ word ∈ mentionedNames raw, word ∉ (declaredState context sheet).namesBefore name) →
        ∀ kept, (run context sheet).1 = .ok kept →
          (run context sheet).2.state.table.get? name = some (.plain .literal raw)) := by
  have known : (place.before.foldl (Record.declare context) .empty).literals.get? name =
      some ⟨raw, true, location⟩ := by
    rw [defined]
    exact get?_literals_replay_of_last fun content member =>
      last content (List.mem_append_left _ member)
  have recorded : (outcomeAt context .empty place).1 = .ok () :=
    outcome_recordValue_of_value reads known rfl
  have knownLater := get?_literals_declaredState reached reads defined last
  have text {kept : Stylesheet} (collected : (run context sheet).1 = .ok kept) :=
    text_of_independent collected knownLater rfl independent
  constructor
  · refine ⟨recorded, fun failure => exists_other_place recorded, ?_, fun kept => text⟩
    intro kept collected
    have imports := imports_of_mem_sheetPlaces reached reads known
    rwa [(run_of_ok context collected).2,
      (ModuleState.sameDeclarations_settleLiterals _ _).imports]
  · intro firm kept collected
    rw [text collected, ModuleState.textIn_eq_self firm]

/-- A file that imports two names through the value `path`. -/
def themed : Stylesheet :=
  [.statement "value" "gap: 4px" .start, .statement "value" "path: \"./y.css\"" .start,
    .statement "value" "a, b as c from path" .start, .statement "value" "d: gap a" .start]

def themedImport : ValuePlace where
  before := [.literal "gap" ⟨"4px", true, .start⟩, .literal "path" ⟨"\"./y.css\"", true, .start⟩]
  params := "a, b as c from path"
  location := .start
  behind := [.literal "d" ⟨"gap a", true, .start⟩]

theorem themed_imports_through_path :
    themedImport ∈ sheetPlaces pureFile themed ∧
      ReadsPath pureFile themed themedImport [⟨"a", "a"⟩, ⟨"b", "c"⟩] "path" "\"./y.css\"" ∧
      unquote "\"./y.css\"" = "./y.css" ∧
      ∃ kept, (run pureFile themed).1 = .ok kept ∧
        (run pureFile themed).2.state.table.get? "path" =
          some (.plain .literal "\"./y.css\"") := by
  have reached : themedImport ∈ sheetPlaces pureFile themed := by decide +kernel
  have reads : ValueRule.parse themedImport.params =
      some (.imports [⟨"a", "a"⟩, ⟨"b", "c"⟩] (.value "path")) := by decide +kernel
  have defined : themedImport.before = [.literal "gap" ⟨"4px", true, .start⟩] ++
      .literal "path" ⟨"\"./y.css\"", true, .start⟩ :: [] := rfl
  have records : sheetRecords pureFile themed =
      [.literal "gap" ⟨"4px", true, .start⟩, .literal "path" ⟨"\"./y.css\"", true, .start⟩,
        .importedValue ⟨"a", "a"⟩ (.value "path") .start,
        .importedValue ⟨"b", "c"⟩ (.value "path") .start,
        .literal "d" ⟨"gap a", true, .start⟩] := by decide +kernel
  have plain : mentionedNames "\"./y.css\"" = [] := by decide +kernel
  have independent : ¬ DependsOnImport (sheetRecords pureFile themed) "path" := by
    apply not_dependsOnImport_of_no_mention
    simp [records, plain]
  have imports := imports_through_values reached reads defined (by simp [themedImport]) independent
  have succeeds : (run pureFile themed).1.toOption.isSome := by decide +kernel
  rcases exists_of_isSome succeeds with ⟨kept, collected⟩
  exact ⟨reached, imports.1, by decide, kept, collected, imports.2 (by simp [plain]) kept collected⟩

/-- The name of the value that a record defines. -/
def valueName? : Record → Option String
  | .literal name content => if content.isValue then some name else none
  | _ => none

/-- A file whose value `p` stands for a path by the name of another value. -/
def chainedPath : Stylesheet :=
  [.statement "value" "base: \"./x.css\"" .start, .statement "value" "p: base" .start,
    .statement "value" "a from p" .start]

def chainedImport : ValuePlace where
  before := [.literal "base" ⟨"\"./x.css\"", true, .start⟩, .literal "p" ⟨"base", true, .start⟩]
  params := "a from p"
  location := .start
  behind := []

/-- The path is read off the value before the name in it is replaced by its text. -/
theorem path_is_read_before_settlement :
    ¬ ∀ (context : FileContext) (sheet kept : Stylesheet) (place : ValuePlace)
      (names : List ImportedName) (name text : String),
      ((sheetRecords context sheet).filterMap valueName?).Nodup →
      (∀ value ∈ (sheetRecords context sheet).filterMap valueName?,
        value ∉ (sheetRecords context sheet).filterMap Record.alias?) →
      place ∈ sheetPlaces context sheet →
      ValueRule.parse place.params = some (.imports names (.value name)) →
      name ∈ place.before.filterMap valueName? →
      ¬ DependsOnImport (sheetRecords context sheet) name →
      (run context sheet).1 = .ok kept →
      (run context sheet).2.state.table.get? name = some (.plain .literal text) →
      ∀ imported ∈ names, importFrom (unquote text) place.location imported ∈
        (run context sheet).2.state.imports := by
  intro claim
  have records : sheetRecords pureFile chainedPath =
      [.literal "base" ⟨"\"./x.css\"", true, .start⟩, .literal "p" ⟨"base", true, .start⟩,
        .importedValue ⟨"a", "a"⟩ (.value "p") .start] := by decide +kernel
  have quoted : mentionedNames "\"./x.css\"" = [] := by decide +kernel
  have named : mentionedNames "base" = ["base"] := by decide +kernel
  have baseFree : ¬ DependsOnImport (sheetRecords pureFile chainedPath) "base" := by
    apply not_dependsOnImport_of_no_mention
    simp [records, quoted]
  have independent : ¬ DependsOnImport (sheetRecords pureFile chainedPath) "p" := by
    have own {content : Literal}
        (defined : .literal "p" content ∈ sheetRecords pureFile chainedPath) :
        mentionedNames content.raw = ["base"] := by
      simp [records] at defined
      rw [defined, named]
    intro depends
    cases depends with
    | directly defined _ mentions isAlias =>
      simp [own defined] at mentions
      simp [mentions, records, Record.alias?] at isAlias
    | through defined _ mentions depends =>
      simp [own defined] at mentions
      exact baseFree (mentions ▸ depends)
  have succeeds : (run pureFile chainedPath).1.toOption.isSome := by decide +kernel
  rcases exists_of_isSome succeeds with ⟨kept, collected⟩
  have imported := claim pureFile chainedPath kept chainedImport [⟨"a", "a"⟩] "p" "\"./x.css\""
    (by decide +kernel) (by decide +kernel) (by decide +kernel) (by decide +kernel)
    (by decide +kernel) independent collected (by decide +kernel) ⟨"a", "a"⟩ (by simp)
  exact absurd imported (by decide +kernel)

end Collect

end ScopedStyles
