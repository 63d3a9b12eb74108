import Mathlib.Data.List.Induction
import ScopedStyles.Processing
import ScopedStyles.Proofs.Module.Delaying
import ScopedStyles.Proofs.Module.RuleKinds
import ScopedStyles.Proofs.Sheet.RoundTrip

/-!
Reading exports back. Exports are listed in an `:export` rule, whose keys and values are printed as
they are. When they hold nothing that ends a declaration, the printed rule is read as a file that
gives exactly these keys, in the same order, each the text that was exported.
-/

namespace ScopedStyles

open Text

/-! ## Substituting nothing -/

theorem substituteSymbols_empty (value : String) : substituteSymbols .empty value = value :=
  renameMentions_none value

/-! ## Literals that mention nothing -/

def TokenTable.ofLiterals (pairs : List (String × String)) : TokenTable :=
  ⟨⟨pairs.map fun (name, value) => (name, .plain .literal value)⟩⟩

theorem TokenTable.keys_ofLiterals (pairs : List (String × String)) :
    (ofLiterals pairs).keys = pairs.map Prod.fst := by
  simp [ofLiterals, keys, OrderedMap.keys]

/-- The texts of literals as they were written. -/
def rawPairs (literals : List (String × Literal)) : List (String × String) :=
  literals.map fun (name, literal) => (name, literal.raw)

theorem map_fst_rawPairs (literals : List (String × Literal)) :
    (rawPairs literals).map Prod.fst = literals.map Prod.fst := by
  simp [rawPairs]

namespace ModuleState

variable {literals : List (String × Literal)} {state : ModuleState}

/-- The state of a file that has recorded these literals and nothing else. -/
def ofLiterals (literals : List (String × Literal)) : ModuleState :=
  { ModuleState.empty with
    table := .ofLiterals (rawPairs literals)
    pending := literals.map Prod.fst
    literals := ⟨literals⟩ }

theorem recordLiteral_ofLiterals {name : String} (absent : name ∉ literals.map Prod.fst)
    (literal : Literal) : (ofLiterals literals).recordLiteral name literal =
      ofLiterals (literals ++ [(name, literal)]) := by
  have noEntry : ¬ (TokenTable.ofLiterals (rawPairs literals)).entries.contains name := by
    rw [OrderedMap.contains_iff_mem_keys]
    change name ∉ (TokenTable.ofLiterals (rawPairs literals)).keys
    rwa [TokenTable.keys_ofLiterals, map_fst_rawPairs]
  have noLiteral : ¬ (OrderedMap.mk literals).contains name := by
    rwa [OrderedMap.contains_iff_mem_keys]
  have entries := OrderedMap.entries_insert_of_not_contains noEntry (.plain .literal literal.raw)
  have known := OrderedMap.entries_insert_of_not_contains noLiteral literal
  have table : (TokenTable.ofLiterals (rawPairs literals)).declareLiteral name literal.raw =
      .ofLiterals (rawPairs (literals ++ [(name, literal)])) := by
    change TokenTable.mk ⟨(OrderedMap.insert _ _ _).entries⟩ = _
    rw [entries]
    simp [TokenTable.ofLiterals, rawPairs]
  have listed : (OrderedMap.mk literals).insert name literal = ⟨literals ++ [(name, literal)]⟩ :=
    congrArg OrderedMap.mk known
  have waiting : addNew name (literals.map Prod.fst) =
      (literals ++ [(name, literal)]).map Prod.fst := by
    rw [addNew, if_neg absent, List.map_append]
    rfl
  unfold recordLiteral declareLiteral await ofLiterals
  dsimp only
  rw [table, listed, waiting]

/-- Literals with different names are recorded one behind the other. -/
theorem foldl_recordLiteral (distinct : (literals.map Prod.fst).Nodup) :
    literals.foldl (fun state (name, literal) => state.recordLiteral name literal) .empty =
      ofLiterals literals := by
  induction literals using List.reverseRecOn with
  | nil => rfl
  | append_singleton before last induction =>
    rw [List.map_append, List.nodup_append] at distinct
    obtain ⟨distinct, -, apart⟩ := distinct
    have absent : last.1 ∉ before.map Prod.fst := fun member =>
      apart last.1 member last.1 (List.mem_singleton.mpr rfl) rfl
    rw [List.foldl_append, induction distinct]
    exact recordLiteral_ofLiterals absent last.2

/-- Settling a text that stands for its name already only ends the waiting of the name. -/
theorem settle_eq_release {name : String} {literal : Literal} (noSymbols : state.symbols = .empty)
    (exported : literal.isValue = false)
    (known : state.table.get? name = some (.plain .literal literal.raw)) :
    state.settle name literal = state.release name := by
  have same : state.declareLiteral name literal.raw = state := by
    rw [declareLiteral, TokenTable.declareLiteral, TokenTable.put, OrderedMap.insert_eq_self known]
  rw [settle, noSymbols, substituteSymbols_empty, exported, if_neg Bool.false_ne_true, same]

/-- Exported literals that stand for their names already are settled as they stand. -/
theorem settleEach_eq (noSymbols : state.symbols = .empty)
    (exported : ∀ entry ∈ literals, entry.2.isValue = false)
    (known : ∀ entry ∈ literals,
      state.table.get? entry.1 = some (.plain .literal entry.2.raw)) :
    settleEach [] literals state =
      { state with
        pending := state.pending.filter fun name => name ∉ literals.map Prod.fst } := by
  induction literals generalizing state with
  | nil =>
    have stays : state.pending.filter
        (fun name => name ∉ ([] : List (String × Literal)).map Prod.fst) = state.pending := by
      simp
    rw [stays]
    rfl
  | cons first rest induction =>
    obtain ⟨name, literal⟩ := first
    have independent : literal.dependsOn [] = false := by simp [Literal.dependsOn]
    have settles := settle_eq_release noSymbols (exported _ List.mem_cons_self)
      (known _ List.mem_cons_self)
    have settlesOthers := induction (show (state.release name).symbols = .empty from noSymbols)
      (fun entry member => exported entry (List.mem_cons_of_mem _ member))
      fun entry member => known entry (List.mem_cons_of_mem _ member)
    rw [settleEach, independent, if_neg Bool.false_ne_true, settles, settlesOthers]
    unfold release
    dsimp only
    rw [List.filter_filter]
    congr 1
    refine List.filter_congr fun other _ => ?_
    rw [Bool.eq_iff_iff]
    simp only [Bool.and_eq_true, decide_eq_true_eq, List.map_cons, List.mem_cons, not_or]
    exact and_comm

/-- Exported literals with different names are settled as they were written. -/
theorem settleLiterals_ofLiterals (distinct : (literals.map Prod.fst).Nodup)
    (exported : ∀ entry ∈ literals, entry.2.isValue = false) :
    (ofLiterals literals).settleLiterals [] =
      { ModuleState.empty with table := .ofLiterals (rawPairs literals) } := by
  have values : literals.filter (·.2.isValue) = [] :=
    List.filter_eq_nil_iff.mpr fun entry member => by simp [exported entry member]
  have others : literals.filter (!·.2.isValue) = literals :=
    List.filter_eq_self.mpr fun entry member => by simp [exported entry member]
  have order : settlementOrder literals = literals := by
    rw [settlementOrder, values, others, List.nil_append]
  have distinctKeys : (TokenTable.ofLiterals (rawPairs literals)).entries.keys.Nodup := by
    change (TokenTable.ofLiterals (rawPairs literals)).keys.Nodup
    rwa [TokenTable.keys_ofLiterals, map_fst_rawPairs]
  change settleEach [] (settlementOrder literals) { ofLiterals literals with literals := .empty } = _
  rw [order, settleEach_eq rfl exported]
  · have noneWaits : (literals.map Prod.fst).filter (fun name => name ∉ literals.map Prod.fst) =
        [] := List.filter_eq_nil_iff.mpr fun name member => by simp [member]
    unfold ofLiterals
    dsimp only
    rw [noneWaits]
    rfl
  · intro entry member
    refine OrderedMap.get?_of_mem distinctKeys ?_
    rw [TokenTable.ofLiterals, rawPairs, List.map_map]
    exact List.mem_map.mpr ⟨entry, member, rfl⟩

end ModuleState

/-! ## Collecting the rule -/

namespace Collect

/-- A sheet that is an `:export` rule is taken out, and declares what the rule lists. -/
theorem run_exportRule (context : FileContext) (body : List Node) (location : Location) :
    let state := ((declarationsOf body).map exportedLiteral).foldl
      (fun state (name, literal) => state.recordLiteral name literal) ModuleState.empty
    run context [.rule ":export" body location] =
      (.ok [], ⟨state.settleLiterals (state.imports.map ImportReference.localName), []⟩) := by
  have noMode : Mode.ofBlockSelector? ":export" = none := by decide
  have noImport : importSpecifier? ":export" = none := by decide
  have isExport : trim ":export" = ":export" := by decide
  have kind : ruleKind context.mode false ":export" = .exports := by
    simp only [ruleKind, noMode, noImport, isExport, ↓reduceIte]
  unfold run sheet nodes
  rw [node_rule, kind]
  rfl

end Collect

/-! ## Exports that can be read where they are printed -/

namespace Node

theorem allPrintable_iff {nodes : List Node} :
    allPrintable nodes ↔ ∀ node ∈ nodes, node.isPrintable := by
  induction nodes with
  | nil => simp [allPrintable]
  | cons first rest induction => simp [allPrintable, induction]

/-- The literals of a body that lists pairs are the pairs, whatever the locations. -/
theorem rawPairs_exportedLiterals {body : List Node} {pairs : List (String × String)}
    (lists : unlocatedAll body =
      pairs.map fun (name, value) => .declaration ⟨name, some value, .start⟩)
    (trimmed : ∀ pair ∈ pairs, trim pair.1 = pair.1) :
    rawPairs ((declarationsOf body).map Collect.exportedLiteral) = pairs := by
  induction pairs generalizing body with
  | nil =>
    rw [unlocatedAll_eq_map, List.map_nil, List.map_eq_nil_iff] at lists
    rw [lists]
    rfl
  | cons pair pairs induction =>
    obtain ⟨name, value⟩ := pair
    rw [unlocatedAll_eq_map, List.map_cons, List.map_eq_cons_iff] at lists
    obtain ⟨first, rest, rfl, isFirst, others⟩ := lists
    obtain ⟨location, rfl⟩ := eq_declaration_of_unlocated ⟨name, some value, .start⟩ isFirst
    rw [← unlocatedAll_eq_map] at others
    have read := induction others fun pair member => trimmed pair (List.mem_cons_of_mem _ member)
    have isTrimmed : trim name = name := trimmed (name, value) List.mem_cons_self
    change (trim name, value) :: rawPairs ((declarationsOf rest).map Collect.exportedLiteral) = _
    rw [read, isTrimmed]

end Node

namespace Exports

/-- A text of identifier characters and spaces holds nothing that a reader stops at. -/
theorem isClosed_of_plain {text : List Char}
    (plain : ∀ character ∈ text, Identifier.isCharacter character ∨ character = ' ') :
    isClosed (':' :: braces) 0 none false text := by
  induction text with
  | nil => rfl
  | cons first rest induction =>
    have isPlain := plain first List.mem_cons_self
    have apart : first ∉ ['\\', '"', '\'', '(', '[', ')', ']', '/', ':', '{', '}', ';'] := by
      intro member
      revert isPlain
      simp only [List.mem_cons, List.not_mem_nil, or_false] at member
      rcases member with rfl | rfl | rfl | rfl | rfl | rfl | rfl | rfl | rfl | rfl | rfl | rfl <;>
        decide
    have behind := induction fun other member => plain other (List.mem_cons_of_mem _ member)
    simp only [List.mem_cons, List.not_mem_nil, or_false, not_or] at apart
    simpa [isClosed, apart, isQuote, braces] using behind

/-- Whether each key and each value can be read where it is printed: neither leaves anything open
or holds the end of a declaration outside brackets, strings and escapes, and a key holds no colon
there and does not begin like an at-rule. -/
def isReadable (exported : Exports) : Bool :=
  exported.entries.all fun (key, value) =>
    isClean (':' :: braces) key && key.toList.head? != some '@' && isClean braces value

variable {exported : Exports}

theorem isReadable_iff : exported.isReadable ↔ ∀ pair ∈ exported.entries,
    isClean (':' :: braces) pair.1 ∧ pair.1.toList.head? ≠ some '@' ∧ isClean braces pair.2 := by
  simp [isReadable, and_assoc]

theorem allPrintable_toRule (readable : exported.isReadable) :
    Node.allPrintable [exported.toRule] := by
  have body : Node.allPrintable
      (exported.entries.map fun (key, value) => .declaration ⟨key, some value, .start⟩) := by
    refine Node.allPrintable_iff.mpr fun node member => ?_
    obtain ⟨pair, listed, rfl⟩ := List.mem_map.mp member
    obtain ⟨clean, noAtRule, cleanValue⟩ := isReadable_iff.mp readable pair listed
    simp [Node.isPrintable, clean, noAtRule, cleanValue]
  have head : isClean braces ":export" := by decide
  rw [Node.allPrintable, toRule, Node.isPrintable, head, body]
  decide

/-- Keys and values of identifier characters and spaces can be read where they are printed, if they
neither begin nor end with white space. -/
theorem isReadable_of_plain
    (plain : ∀ pair ∈ exported.entries, ∀ text ∈ [pair.1, pair.2],
      (∀ character ∈ text.toList, Identifier.isCharacter character ∨ character = ' ') ∧
        ¬ text.toList.head?.any isBlank ∧ ¬ text.toList.getLast?.any isBlank) :
    exported.isReadable := by
  have clean : ∀ pair ∈ exported.entries, ∀ text ∈ [pair.1, pair.2],
      isClean (':' :: braces) text := by
    intro pair member text isText
    obtain ⟨plain, front, back⟩ := plain pair member text isText
    have closed := isClosed_of_plain plain
    simp [isClean, closed, front, back]
  refine isReadable_iff.mpr fun pair member => ?_
  have key := clean pair member pair.1 List.mem_cons_self
  have value := clean pair member pair.2 (List.mem_cons_of_mem _ List.mem_cons_self)
  refine ⟨key, fun atRule => ?_, ?_⟩
  · have sign := (plain pair member pair.1 List.mem_cons_self).1 '@' (List.mem_of_head? atRule)
    revert sign
    decide
  · simp only [isClean, Bool.and_eq_true] at value ⊢
    exact ⟨⟨isClosed_of_subset (List.subset_cons_self ':' braces) value.1.1, value.1.2⟩, value.2⟩

/-- Readable exports with different keys are read back from their printed rule: the rule is taken
out, and the file declares the exports, as texts, and nothing else. -/
theorem run_parse_toRule (distinct : exported.keys.Nodup) (readable : exported.isReadable)
    (context : FileContext) :
    Collect.run context (parse (render [exported.toRule])) =
      (.ok [], ⟨{ ModuleState.empty with table := .ofLiterals exported.entries }, []⟩) := by
  have parsed := (yields_printAll _ (allPrintable_toRule readable) [] (.inl rfl)).unlocatedAll_parse
  rw [Node.ofEvents_eventsAll] at parsed
  obtain ⟨rule, isRule, sameRule⟩ := Node.eq_singleton_of_unlocatedAll parsed
  obtain ⟨body, location, rfl, sameBody⟩ := Node.eq_rule_of_unlocated sameRule
  have lists : Node.unlocatedAll body =
      exported.entries.map fun (key, value) => .declaration ⟨key, some value, .start⟩ := by
    rw [sameBody, Node.unlocatedAll_eq_map, List.map_map]
    rfl
  have pairs := Node.rawPairs_exportedLiterals lists fun pair member => by
    have clean := (isReadable_iff.mp readable pair member).1
    rw [trim, trimCharacters_of_isClean clean, String.ofList_toList]
  have names : ((declarationsOf body).map Collect.exportedLiteral).map Prod.fst = exported.keys := by
    rw [← map_fst_rawPairs, pairs]
    rfl
  have distinctNames := names ▸ distinct
  have literal : ∀ entry ∈ (declarationsOf body).map Collect.exportedLiteral,
      entry.2.isValue = false := by
    intro entry member
    obtain ⟨content, _, rfl⟩ := List.mem_map.mp member
    rfl
  rw [render, isRule, Collect.run_exportRule, ModuleState.foldl_recordLiteral distinctNames]
  change (_, Collection.mk (ModuleState.settleLiterals [] _) []) = _
  rw [ModuleState.settleLiterals_ofLiterals distinctNames literal, pairs]

end Exports

/-! ## Exports of a processed file -/

theorem Convention.nodup_extend {exported : Exports} (distinct : exported.keys.Nodup)
    (convention : Convention) (file : Path) (name value : String) :
    (convention.extend file exported name value).keys.Nodup := by
  have insertIfNew : ∀ {exported : Exports}, exported.keys.Nodup → ∀ key,
      (exported.insertIfNew key value).keys.Nodup := by
    intro exported distinct key
    unfold OrderedMap.insertIfNew
    split
    · exact distinct
    · exact OrderedMap.nodup_keys_insert distinct key value
  cases convention with
  | camelCase => exact insertIfNew (OrderedMap.nodup_keys_insert distinct name value) _
  | dashes => exact insertIfNew (OrderedMap.nodup_keys_insert distinct name value) _
  | _ => exact OrderedMap.nodup_keys_insert distinct _ value

theorem Exports.nodup_keys_ofTable (table : TokenTable) (convention : Convention) (file : Path) :
    (Exports.ofTable table convention file).keys.Nodup := by
  unfold ofTable
  refine List.foldlRecOn (motive := fun exported : Exports => exported.keys.Nodup) table.toList _
    List.nodup_nil fun exported distinct entry _ => ?_
  exact convention.nodup_extend distinct file entry.1 entry.2.joined

/-- The rule that lists these exports, printed and read as a file of its own, declares the keys in
their order, each with its exported text, and nothing else. -/
def Exports.ReadsBack (exported : Exports) : Prop :=
  ∀ context, Collect.run context (parse (render [exported.toRule])) =
    (.ok [], ⟨{ ModuleState.empty with table := .ofLiterals exported.entries }, []⟩)

namespace Processing

variable {workspace : Workspace}

theorem readsBack_of_run {path : Path} {source : String} {file : ProcessedFile}
    (processed : (run workspace path source).outcome = .ok file)
    (readable : file.exported.isReadable) : file.exported.ReadsBack := by
  refine Exports.run_parse_toRule ?_ readable
  unfold run at processed
  generalize (Graph.compile workspace path source).run.run .empty = ending at processed
  obtain ⟨outcome, graph⟩ := ending
  cases outcome with
  | error halt => cases processed
  | ok compiled =>
    cases processed
    exact Exports.nodup_keys_ofTable compiled.table workspace.options.convention compiled.path

/-- The rule that lists the exports of a processed text or file is read back, under every key
convention, when keys and values can be read where they are printed. -/
theorem exports_read_back (workspace : Workspace) (path : String) :
    (∀ source file, (processSource workspace path source).outcome = .ok file →
      file.exported.isReadable → file.exported.ReadsBack) ∧
    (∀ file, (processFile workspace path).outcome = .ok file →
      file.exported.isReadable → file.exported.ReadsBack) := by
  refine ⟨fun source file processed readable => readsBack_of_run processed readable, ?_⟩
  intro file processed readable
  unfold processFile at processed
  dsimp only at processed
  split at processed
  · cases processed
  · exact readsBack_of_run processed readable

/-- A workspace without other files, whose scoped names are marked at their end. -/
def bare : Workspace where
  options := { Options.standard with namePattern := .template "[local]_x" }
  files := .ofList .top []
  resolver := .nearest

theorem exported_of_entries {outcome : Except Halt ProcessedFile} {entries : List (String × String)}
    (hands : outcome.toOption.map (·.exported.entries) = some entries) :
    ∃ file, outcome = .ok file ∧ file.exported = ⟨entries⟩ := by
  cases outcome with
  | error halt => cases hands
  | ok file => exact ⟨file, rfl, congrArg OrderedMap.mk (Option.some.inj hands)⟩

theorem composed_class_reads_back :
    ∃ file, (processSource bare "/a.css" ".a\x7b\x7d.b\x7bcomposes:a\x7d").outcome = .ok file ∧
      file.exported.isReadable ∧ render [file.exported.toRule] = ":export\x7ba:a_x;b:b_x a_x\x7d" ∧
      file.exported.ReadsBack := by
  obtain ⟨file, processed, exported⟩ := exported_of_entries
    (show (processSource bare "/a.css" ".a\x7b\x7d.b\x7bcomposes:a\x7d").outcome.toOption.map
      (·.exported.entries) = some [("a", "a_x"), ("b", "b_x a_x")] by decide +kernel)
  have readable : file.exported.isReadable := by
    rw [exported]
    decide +kernel
  refine ⟨file, processed, readable, ?_,
    (exports_read_back bare "/a.css").1 _ file processed readable⟩
  rw [exported]
  decide +kernel

/-- A key is printed without the escape that its semicolon had, and ends there. -/
theorem semicolon_ends_key :
    ¬ ∀ (workspace : Workspace) (path source : String) (context : FileContext),
      workspace.options.convention = .asIs →
      ∀ file, (processSource workspace path source).outcome = .ok file →
        (Collect.run context (parse (render [file.exported.toRule]))).2.state.table.keys =
          file.exported.keys := by
  intro claim
  obtain ⟨file, processed, exported⟩ := exported_of_entries
    (show (processSource bare "/a.css" ".a\\;b\x7b\x7d").outcome.toOption.map
      (·.exported.entries) = some [("a;b", "a_b_x")] by decide +kernel)
  have keys := claim bare "/a.css" _ (bare.context (.parse "/b.css") "") rfl file processed
  rw [exported] at keys
  exact absurd keys (by decide +kernel)

end Processing

end ScopedStyles
