import ScopedStyles.Proofs.Identifier.Mentions
import ScopedStyles.Proofs.Module.Symbols

/-!
Literals that are settled in two rounds. A literal that mentions the alias of an import, or a value
that is put off itself, waits until the aliases have their texts. Settling in two rounds comes to
settling once in another order: what is put off comes last. So a value that is put off also sees
values that are defined after it; the order makes no difference where none is mentioned.
-/

namespace ScopedStyles

theorem Literal.dependsOn_iff {literal : Literal} {names : List String} :
    literal.dependsOn names ↔ ∃ name ∈ mentionedNames literal.raw, name ∈ names := by
  simp [dependsOn]

namespace ModuleState

variable {state other : ModuleState} {blocked names : List String}
  {literals : List (String × Literal)} {aliases : List (String × String)}

theorem mem_literals_settleLiterals {entry : String × Literal}
    (member : entry ∈ (state.settleLiterals blocked).literals.entries) :
    entry ∈ state.literals.entries := by
  suffices kept : ∀ entry ∈ (state.settleLiterals blocked).literals.entries,
      entry ∈ state.literals.entries from kept entry member
  apply settleEach_induction
      (motive := fun later => ∀ entry ∈ later.literals.entries, entry ∈ state.literals.entries)
  · intro postponed listed later induction entry member
    rcases OrderedMap.mem_entries_insert member with rfl | earlier
    · exact mem_settlementOrder.mp listed
    · exact induction entry earlier
  · intro settled _ later induction entry member
    rw [literals_settle] at member
    exact induction entry member
  · exact nofun

/-! ## States that say the same -/

/-- Two states give every name the same entry and the same text. -/
structure Alike (state other : ModuleState) : Prop where
  table : ∀ name, state.table.get? name = other.table.get? name
  symbols : ∀ name, state.symbols.get? name = other.symbols.get? name

namespace Alike

theorem refl (state : ModuleState) : Alike state state :=
  ⟨fun _ => rfl, fun _ => rfl⟩

theorem symm (alike : Alike state other) : Alike other state :=
  ⟨fun name => (alike.table name).symm, fun name => (alike.symbols name).symm⟩

theorem trans {third : ModuleState} (left : Alike state other) (right : Alike other third) :
    Alike state third :=
  ⟨fun name => (left.table name).trans (right.table name),
    fun name => (left.symbols name).trans (right.symbols name)⟩

theorem settle (alike : Alike state other) (name : String) (literal : Literal) :
    Alike (state.settle name literal) (other.settle name literal) := by
  have text : substituteSymbols state.symbols literal.raw =
      substituteSymbols other.symbols literal.raw :=
    renameMentions_congr fun _ _ => alike.symbols _
  constructor
  · intro asked
    rw [get?_table_settle, get?_table_settle, text, alike.table]
  · intro asked
    rw [get?_symbols_settle, get?_symbols_settle, text, alike.symbols]

theorem addSymbol (alike : Alike state other) (name text : String) :
    Alike (state.addSymbol name text) (other.addSymbol name text) := by
  refine ⟨alike.table, fun asked => ?_⟩
  change (state.symbols.insert name text).get? asked = (other.symbols.insert name text).get? asked
  rw [OrderedMap.get?_insert, OrderedMap.get?_insert, alike.symbols]

end Alike

/-! ## Settling one literal after the other -/

/-- Settle all literals in the order given. -/
def settleAll (literals : List (String × Literal)) (state : ModuleState) : ModuleState :=
  literals.foldl (fun state entry => state.settle entry.1 entry.2) state

/-- Give the aliases of imports their texts. -/
def addSymbols (state : ModuleState) (aliases : List (String × String)) : ModuleState :=
  aliases.foldl (fun state entry => state.addSymbol entry.1 entry.2) state

theorem settleAll_append (first second : List (String × Literal)) (state : ModuleState) :
    state.settleAll (first ++ second) = (state.settleAll first).settleAll second :=
  List.foldl_append

theorem Alike.settleAll (alike : Alike state other) (literals : List (String × Literal)) :
    Alike (state.settleAll literals) (other.settleAll literals) := by
  induction literals generalizing state other with
  | nil => exact alike
  | cons first rest induction => exact induction (alike.settle first.1 first.2)

theorem Alike.addSymbols (alike : Alike state other) (aliases : List (String × String)) :
    Alike (state.addSymbols aliases) (other.addSymbols aliases) := by
  induction aliases generalizing state other with
  | nil => exact alike
  | cons first rest induction => exact induction (alike.addSymbol first.1 first.2)

theorem literals_addSymbols (state : ModuleState) (aliases : List (String × String)) :
    (state.addSymbols aliases).literals = state.literals := by
  induction aliases generalizing state with
  | nil => rfl
  | cons first rest induction => exact induction (state.addSymbol first.1 first.2)

/-! ## What is put off -/

/-- The names that block the literals behind this one, when it is put off. -/
def blockedBehind (blocked : List String) (entry : String × Literal) : List String :=
  if entry.2.isValue then entry.1 :: blocked else blocked

/-- The literals that are put off, in order. -/
def delayed (blocked : List String) : List (String × Literal) → List (String × Literal)
  | [] => []
  | entry :: rest =>
    if entry.2.dependsOn blocked then entry :: delayed (blockedBehind blocked entry) rest
    else delayed blocked rest

/-- The literals that are settled at once, in order. -/
def prompt (blocked : List String) : List (String × Literal) → List (String × Literal)
  | [] => []
  | entry :: rest =>
    if entry.2.dependsOn blocked then prompt (blockedBehind blocked entry) rest
    else entry :: prompt blocked rest

/-- What is put off mentions no value behind it that is settled at once. -/
def looksBack (blocked : List String) : List (String × Literal) → Bool
  | [] => true
  | entry :: rest =>
    if entry.2.dependsOn blocked then
      ((prompt (blockedBehind blocked entry) rest).all fun later =>
        !(later.2.isValue && (mentionedNames entry.2.raw).contains later.1)) &&
      looksBack (blockedBehind blocked entry) rest
    else looksBack blocked rest

theorem sublist_delayed (blocked : List String) (literals : List (String × Literal)) :
    (delayed blocked literals).Sublist literals := by
  fun_induction delayed blocked literals with
  | case1 => exact .slnil
  | case2 _ _ _ _ induction => exact induction.cons_cons _
  | case3 _ _ _ _ induction => exact induction.cons _

theorem sublist_prompt (blocked : List String) (literals : List (String × Literal)) :
    (prompt blocked literals).Sublist literals := by
  fun_induction prompt blocked literals with
  | case1 => exact .slnil
  | case2 _ _ _ _ induction => exact induction.cons _
  | case3 _ _ _ _ induction => exact induction.cons_cons _

theorem not_mem_of_mem_prompt {entry : String × Literal} {name : String}
    (member : entry ∈ prompt blocked literals) (blocks : name ∈ blocked) :
    name ∉ mentionedNames entry.2.raw := by
  fun_induction prompt blocked literals with
  | case1 => cases member
  | case2 blocked first rest depends induction =>
    refine induction member ?_
    unfold blockedBehind
    split
    · exact List.mem_cons_of_mem _ blocks
    · exact blocks
  | case3 blocked first rest free induction =>
    rcases List.mem_cons.mp member with rfl | later
    · exact fun mentions => free (Literal.dependsOn_iff.mpr ⟨name, mentions, blocks⟩)
    · exact induction later blocks

theorem prompt_nil (literals : List (String × Literal)) : prompt [] literals = literals := by
  induction literals with
  | nil => rfl
  | cons first rest induction =>
    rw [prompt, if_neg (by simp [Literal.dependsOn]), induction]

/-- Settling what can be settled is settling the literals that are not put off. -/
theorem alike_settleEach (alike : Alike state other) (blocked : List String)
    (literals : List (String × Literal)) :
    Alike (settleEach blocked literals state) (other.settleAll (prompt blocked literals)) := by
  induction literals generalizing blocked state other with
  | nil => exact alike
  | cons first rest induction =>
    unfold settleEach prompt
    split
    · have postponed : Alike (state.postpone first.1 first.2) other :=
        ⟨alike.table, alike.symbols⟩
      exact induction postponed (blockedBehind blocked first)
    · exact induction (alike.settle first.1 first.2) blocked

theorem alike_settleLiterals (alike : Alike state other)
    (same : state.literals.entries = literals) (blocked : List String) :
    Alike (state.settleLiterals blocked)
      (other.settleAll (prompt blocked (settlementOrder literals))) := by
  have emptied : Alike { state with literals := .empty } other := ⟨alike.table, alike.symbols⟩
  rw [settleLiterals, same]
  exact alike_settleEach emptied blocked (settlementOrder literals)

theorem entries_settleEach (distinct : (literals.map Prod.fst).Nodup)
    (fresh : ∀ name ∈ literals.map Prod.fst, ¬ state.literals.contains name)
    (blocked : List String) :
    (settleEach blocked literals state).literals.entries =
      state.literals.entries ++ delayed blocked literals := by
  induction literals generalizing blocked state with
  | nil => exact (List.append_nil _).symm
  | cons first rest induction =>
    obtain ⟨name, literal⟩ := first
    obtain ⟨absent, distinct⟩ := List.nodup_cons.mp distinct
    unfold settleEach delayed
    split
    · refine (induction distinct ?_ _).trans ?_
      · intro later member known
        rcases literals_contains_postpone.mp known with equal | known
        · exact absent (equal ▸ member)
        · exact fresh later (List.mem_cons_of_mem _ member) known
      · have inserted := OrderedMap.entries_insert_of_not_contains
          (fresh name List.mem_cons_self) literal
        change (state.literals.insert name literal).entries ++ _ = _
        rw [inserted, List.append_assoc]
        rfl
    · rw [induction distinct ?_ blocked, literals_settle]
      intro later member
      rw [literals_settle]
      exact fresh later (List.mem_cons_of_mem _ member)

/-! ## The order of settlement -/

theorem perm_settlementOrder (literals : List (String × Literal)) :
    (settlementOrder literals).Perm literals :=
  List.filter_append_perm (fun entry : String × Literal => entry.2.isValue) literals

/-- Literals are in the order of settlement when no value comes after an export. -/
theorem settlementOrder_eq_self
    (ordered : literals.Pairwise fun first second => second.2.isValue → first.2.isValue) :
    settlementOrder literals = literals := by
  induction literals with
  | nil => rfl
  | cons first rest induction =>
    obtain ⟨leads, ordered⟩ := List.pairwise_cons.mp ordered
    have tail := induction ordered
    unfold settlementOrder at tail ⊢
    cases isValue : first.2.isValue with
    | true => simpa [isValue] using tail
    | false =>
      have noValue : rest.filter (·.2.isValue) = [] := by
        refine List.filter_eq_nil_iff.mpr fun entry member later => ?_
        rw [leads entry member later] at isValue
        cases isValue
      rw [noValue, List.nil_append] at tail
      simp [isValue, noValue, tail]

theorem pairwise_settlementOrder (literals : List (String × Literal)) :
    (settlementOrder literals).Pairwise fun first second =>
      second.2.isValue → first.2.isValue := by
  refine List.pairwise_append.mpr ⟨?_, ?_, ?_⟩
  · refine List.pairwise_of_forall_mem_list fun first member _ _ _ => ?_
    exact (List.mem_filter.mp member).2
  · refine List.pairwise_of_forall_mem_list fun _ _ second member isValue => ?_
    simp [isValue] at member
  · intro first member _ _ _
    exact (List.mem_filter.mp member).2

theorem settlementOrder_delayed (blocked : List String) (literals : List (String × Literal)) :
    settlementOrder (delayed blocked (settlementOrder literals)) =
      delayed blocked (settlementOrder literals) :=
  settlementOrder_eq_self ((pairwise_settlementOrder literals).sublist (sublist_delayed _ _))

/-! ## Independent literals -/

/-- Neither of two literals mentions the other one, if that is a value. -/
structure Independent (first second : String × Literal) : Prop where
  different : first.1 ≠ second.1
  ahead : first.2.isValue → first.1 ∉ mentionedNames second.2.raw
  behind : second.2.isValue → second.1 ∉ mentionedNames first.2.raw

theorem Independent.symm {first second : String × Literal}
    (independent : Independent first second) : Independent second first :=
  ⟨independent.different.symm, independent.behind, independent.ahead⟩

/-- What a literal comes to does not depend on a literal that it does not mention. -/
theorem text_settle {first second : String × Literal} (independent : Independent first second)
    (state : ModuleState) :
    substituteSymbols (state.settle first.1 first.2).symbols second.2.raw =
      substituteSymbols state.symbols second.2.raw := by
  refine renameMentions_congr fun name mentions => ?_
  rw [get?_symbols_settle, if_neg]
  rintro ⟨rfl, isValue⟩
  exact independent.ahead isValue mentions

theorem settle_settle {first second : String × Literal} (independent : Independent first second)
    (state : ModuleState) :
    Alike ((state.settle first.1 first.2).settle second.1 second.2)
      ((state.settle second.1 second.2).settle first.1 first.2) := by
  have second_text := text_settle independent state
  have first_text := text_settle independent.symm state
  constructor
  · intro name
    simp only [get?_table_settle, second_text, first_text]
    split
    · rename_i isSecond
      subst isSecond
      rw [if_neg (Ne.symm independent.different)]
    · rfl
  · intro name
    simp only [get?_symbols_settle, second_text, first_text]
    split
    · rename_i isSecond
      obtain ⟨rfl, isValue⟩ := isSecond
      rw [if_neg fun isFirst => independent.different isFirst.1.symm]
    · rfl

theorem settle_settleAll {entry : String × Literal}
    (independent : ∀ other ∈ literals, Independent entry other) (state : ModuleState) :
    Alike ((state.settle entry.1 entry.2).settleAll literals)
      ((state.settleAll literals).settle entry.1 entry.2) := by
  induction literals generalizing state with
  | nil => exact .refl _
  | cons first rest induction =>
    have swapped := (settle_settle (independent first List.mem_cons_self) state).settleAll rest
    have later := induction (fun other member => independent other (List.mem_cons_of_mem _ member))
      (state.settle first.1 first.2)
    exact swapped.trans later

/-- A literal that mentions no alias does not depend on the texts of the aliases. -/
theorem addSymbols_settle {entry : String × Literal}
    (free : ∀ name ∈ aliases.map Prod.fst,
      name ≠ entry.1 ∧ name ∉ mentionedNames entry.2.raw) (state : ModuleState) :
    Alike ((state.settle entry.1 entry.2).addSymbols aliases)
      ((state.addSymbols aliases).settle entry.1 entry.2) := by
  induction aliases generalizing state with
  | nil => exact .refl _
  | cons first rest induction =>
    obtain ⟨name, value⟩ := first
    obtain ⟨different, unmentioned⟩ := free name List.mem_cons_self
    have text : substituteSymbols (state.addSymbol name value).symbols entry.2.raw =
        substituteSymbols state.symbols entry.2.raw := by
      refine renameMentions_congr fun mentioned mentions => ?_
      refine OrderedMap.get?_insert_of_ne state.symbols ?_ value
      rintro rfl
      exact unmentioned mentions
    have swapped : Alike ((state.settle entry.1 entry.2).addSymbol name value)
        ((state.addSymbol name value).settle entry.1 entry.2) := by
      constructor
      · intro asked
        rw [get?_table_settle, text]
        exact get?_table_settle state entry.1 asked entry.2
      · intro asked
        rw [get?_symbols_settle, text]
        change ((state.settle entry.1 entry.2).symbols.insert name value).get? asked =
          if _ then _ else (state.symbols.insert name value).get? asked
        rw [OrderedMap.get?_insert, OrderedMap.get?_insert, get?_symbols_settle]
        by_cases isAlias : asked = name
        · subst isAlias
          simp [different]
        · simp [isAlias]
    have later := induction (fun other member => free other (List.mem_cons_of_mem _ member))
      (state.addSymbol name value)
    exact (swapped.addSymbols rest).trans later

theorem addSymbols_settleAll
    (free : ∀ entry ∈ literals, ∀ name ∈ aliases.map Prod.fst,
      name ≠ entry.1 ∧ name ∉ mentionedNames entry.2.raw) (state : ModuleState) :
    Alike ((state.settleAll literals).addSymbols aliases)
      ((state.addSymbols aliases).settleAll literals) := by
  induction literals generalizing state with
  | nil => exact .refl _
  | cons first rest induction =>
    have later := induction (fun entry member => free entry (List.mem_cons_of_mem _ member))
      (state.settle first.1 first.2)
    exact later.trans ((addSymbols_settle (free first List.mem_cons_self) state).settleAll rest)

theorem settleAll_delayed (distinct : (literals.map Prod.fst).Nodup)
    (back : looksBack blocked literals) (state : ModuleState) :
    Alike (((state.settleAll (prompt blocked literals))).settleAll (delayed blocked literals))
      (state.settleAll literals) := by
  induction literals generalizing blocked state with
  | nil => exact .refl _
  | cons first rest induction =>
    obtain ⟨absent, distinct⟩ := List.nodup_cons.mp distinct
    unfold looksBack at back
    unfold prompt delayed
    split at back
    · rename_i depends
      rw [if_pos depends, if_pos depends]
      obtain ⟨unmentioned, back⟩ := Bool.and_eq_true_iff.mp back
      have independent : ∀ other ∈ prompt (blockedBehind blocked first) rest,
          Independent first other := by
        intro other member
        refine ⟨?_, ?_, ?_⟩
        · intro equal
          have later := (sublist_prompt _ _).subset member
          exact absent (equal ▸ List.mem_map_of_mem later)
        · intro isValue
          refine not_mem_of_mem_prompt member ?_
          rw [blockedBehind, if_pos isValue]
          exact List.mem_cons_self
        · intro isValue mentions
          have clear := List.all_eq_true.mp unmentioned other member
          simp [isValue, mentions] at clear
      have swapped := (settle_settleAll independent state).symm.settleAll
        (delayed (blockedBehind blocked first) rest)
      exact swapped.trans (induction distinct back (state.settle first.1 first.2))
    · rename_i free
      rw [if_neg free, if_neg free]
      exact induction distinct back (state.settle first.1 first.2)

/-! ## Texts of literals -/

/-- A state gives a literal this text: its entry, and what is substituted for it if it is a value. -/
structure Gives (state : ModuleState) (entry : String × Literal) (text : String) : Prop where
  table : state.table.get? entry.1 = some (.plain .literal text)
  symbol : entry.2.isValue → state.symbols.get? entry.1 = some text

theorem Alike.gives {entry : String × Literal} {text : String} (alike : Alike state other)
    (gives : other.Gives entry text) : state.Gives entry text :=
  ⟨(alike.table entry.1).trans gives.table,
    fun isValue => (alike.symbols entry.1).trans (gives.symbol isValue)⟩

theorem gives_settle_self (state : ModuleState) (name : String) (literal : Literal) :
    (state.settle name literal).Gives (name, literal)
      (substituteSymbols state.symbols literal.raw) := by
  constructor
  · rw [get?_table_settle, if_pos rfl]
  · intro isValue
    rw [get?_symbols_settle, if_pos ⟨rfl, isValue⟩]

theorem gives_settle {first entry : String × Literal} {text : String}
    (different : entry.1 ≠ first.1) (gives : state.Gives entry text) :
    (state.settle first.1 first.2).Gives entry text := by
  constructor
  · rw [get?_table_settle, if_neg different]
    exact gives.table
  · intro isValue
    rw [get?_symbols_settle, if_neg fun same => different same.1]
    exact gives.symbol isValue

theorem gives_settleAll_of_not_mem {entry : String × Literal} {text : String}
    (absent : entry.1 ∉ literals.map Prod.fst) (gives : state.Gives entry text) :
    (state.settleAll literals).Gives entry text := by
  induction literals generalizing state with
  | nil => exact gives
  | cons first rest induction =>
    rw [List.map_cons, List.mem_cons, not_or] at absent
    exact induction absent.2 (gives_settle absent.1 gives)

theorem gives_settleAll (distinct : (literals.map Prod.fst).Nodup) {entry : String × Literal}
    (member : entry ∈ literals) (state : ModuleState) :
    ∃ text, (state.settleAll literals).Gives entry text := by
  induction literals generalizing state with
  | nil => cases member
  | cons first rest induction =>
    obtain ⟨absent, distinct⟩ := List.nodup_cons.mp distinct
    rcases List.mem_cons.mp member with rfl | later
    · have gives := gives_settle_self state entry.1 entry.2
      have kept := gives_settleAll_of_not_mem absent gives
      exact ⟨_, kept⟩
    · exact induction distinct later (state.settle first.1 first.2)

/-! ## Two rounds -/

/-- Settle the literals that mention no alias, give the aliases their texts, and settle the rest. -/
def settleInRounds (state : ModuleState) (aliases : List (String × String)) : ModuleState :=
  ((state.settleLiterals (aliases.map Prod.fst)).addSymbols aliases).settleLiterals []

/-- Give the aliases their texts before any literal is settled. -/
def settleAtOnce (state : ModuleState) (aliases : List (String × String)) : ModuleState :=
  (state.addSymbols aliases).settleLiterals []

theorem settleAtOnce_alike (state : ModuleState) (aliases : List (String × String)) :
    Alike (state.settleAtOnce aliases)
      ((state.addSymbols aliases).settleAll (settlementOrder state.literals.entries)) := by
  have settled := alike_settleLiterals (.refl (state.addSymbols aliases)) rfl []
  rwa [prompt_nil, literals_addSymbols] at settled

section

variable (distinct : state.literals.keys.Nodup)
  (disjoint : ∀ name ∈ aliases.map Prod.fst, ¬ state.literals.contains name)

include distinct

theorem nodup_settlementOrder :
    ((settlementOrder state.literals.entries).map Prod.fst).Nodup :=
  ((perm_settlementOrder state.literals.entries).map Prod.fst).nodup_iff.mpr distinct

include disjoint

theorem settleInRounds_alike :
    Alike (state.settleInRounds aliases)
      ((state.addSymbols aliases).settleAll
        (prompt (aliases.map Prod.fst) (settlementOrder state.literals.entries) ++
          delayed (aliases.map Prod.fst) (settlementOrder state.literals.entries))) := by
  have left : ((state.settleLiterals (aliases.map Prod.fst)).addSymbols aliases).literals.entries =
      delayed (aliases.map Prod.fst) (settlementOrder state.literals.entries) := by
    rw [literals_addSymbols, settleLiterals, entries_settleEach (nodup_settlementOrder distinct)]
    · rfl
    · exact fun _ _ => nofun
  have first := (alike_settleLiterals (.refl state) rfl (aliases.map Prod.fst)).addSymbols aliases
  have second := alike_settleLiterals (first.trans (addSymbols_settleAll ?_ state)) left []
  · rw [settlementOrder_delayed, prompt_nil] at second
    rw [settleAll_append]
    exact second
  · intro entry member name isAlias
    refine ⟨?_, not_mem_of_mem_prompt member isAlias⟩
    rintro rfl
    have listed := mem_settlementOrder.mp ((sublist_prompt _ _).subset member)
    exact disjoint _ isAlias (OrderedMap.contains_of_mem_entries listed)

/-- Delaying a literal does not change its text, nor that of any other one, where no value that is
put off mentions a value defined after it that is not. -/
theorem delaying_keeps_texts
    (back : looksBack (aliases.map Prod.fst) (settlementOrder state.literals.entries)) :
    ∀ entry ∈ state.literals.entries, ∃ text,
      (state.settleInRounds aliases).Gives entry text ∧
        (state.settleAtOnce aliases).Gives entry text := by
  intro entry member
  have order := nodup_settlementOrder distinct
  have once := settleAtOnce_alike state aliases
  have rounds := settleInRounds_alike distinct disjoint
  rw [settleAll_append] at rounds
  have same := rounds.trans (settleAll_delayed order back (state.addSymbols aliases))
  obtain ⟨text, gives⟩ := gives_settleAll order (mem_settlementOrder.mpr member)
    (state.addSymbols aliases)
  exact ⟨text, same.gives gives, once.gives gives⟩

end

/-- The literals of a file that imports `gap` and `tone`. -/
def spacing : ModuleState :=
  { ModuleState.empty with
    literals := ⟨[("wide", ⟨"calc(gap * 2)", true, .start⟩), ("thin", ⟨"1px", true, .start⟩),
      ("frame", ⟨"thin tone", false, .start⟩), ("outer", ⟨"wide thin", true, .start⟩)]⟩ }

theorem spacing_keeps_texts :
    spacing.literals.keys.Nodup ∧
      (∀ name ∈ ["gap", "tone"], ¬ spacing.literals.contains name) ∧
      looksBack ["gap", "tone"] (settlementOrder spacing.literals.entries) ∧
      delayed ["gap", "tone"] (settlementOrder spacing.literals.entries) ≠ [] ∧
      ∀ entry ∈ spacing.literals.entries, ∃ text,
        (spacing.settleInRounds [("gap", "4px"), ("tone", "red")]).Gives entry text ∧
          (spacing.settleAtOnce [("gap", "4px"), ("tone", "red")]).Gives entry text := by
  have distinct : spacing.literals.keys.Nodup := by decide +kernel
  have disjoint : ∀ name ∈ ["gap", "tone"], ¬ spacing.literals.contains name := by decide +kernel
  have back : looksBack ["gap", "tone"] (settlementOrder spacing.literals.entries) := by
    decide +kernel
  exact ⟨distinct, disjoint, back, by decide +kernel,
    @delaying_keeps_texts spacing [("gap", "4px"), ("tone", "red")] distinct disjoint back⟩

/-- A value that mentions an import sees the value behind it; at once it would not. -/
theorem delayed_value_sees_later_one :
    ¬ ∀ (state : ModuleState) (aliases : List (String × String)), state.literals.keys.Nodup →
      (∀ name ∈ aliases.map Prod.fst, ¬ state.literals.contains name) →
      ∀ entry ∈ state.literals.entries,
        (state.settleInRounds aliases).table.get? entry.1 =
          (state.settleAtOnce aliases).table.get? entry.1 := by
  intro claim
  let state : ModuleState :=
    { ModuleState.empty with
      literals := ⟨[("a", ⟨"x b", true, .start⟩), ("b", ⟨"red", true, .start⟩)]⟩ }
  have same := claim state [("x", "X")] (by decide +kernel) (by decide +kernel)
    ("a", ⟨"x b", true, .start⟩) (by decide +kernel)
  have inRounds : (state.settleInRounds [("x", "X")]).table.get? "a" =
      some (.plain .literal "X red") := by decide +kernel
  have atOnce : (state.settleAtOnce [("x", "X")]).table.get? "a" =
      some (.plain .literal "X b") := by decide +kernel
  rw [inRounds, atOnce] at same
  exact absurd same (by decide +kernel)

end ModuleState

end ScopedStyles
