import Mathlib.Data.List.Nodup
import ScopedStyles.Proofs.Module.Delaying
import ScopedStyles.Proofs.Module.Waiting

/-!
Which literals are settled. One pass goes over the values and then over the exports. A literal is
left when it mentions a blocked name or a value that has been left before it, and everything else is
settled. So what is left depends on the blocked names only: a second pass finds the same, and fewer
blocked names leave no literal that more would not leave.
-/

namespace ScopedStyles.ModuleState

variable {state : ModuleState} {blocked : List String} {literals : List (String × Literal)}
  {entry : String × Literal} {name : String}

/-! ## What is put off and what is not -/

theorem perm_prompt_delayed (blocked : List String) (literals : List (String × Literal)) :
    (prompt blocked literals ++ delayed blocked literals).Perm literals := by
  fun_induction delayed blocked literals with
  | case1 => exact .nil
  | case2 blocked first rest depends induction =>
    rw [prompt, if_pos depends]
    exact List.perm_middle.trans (induction.cons first)
  | case3 blocked first rest free induction =>
    rw [prompt, if_neg free]
    exact induction.cons first

/-- The names that block what comes behind these literals. -/
def blockedAfter (blocked : List String) : List (String × Literal) → List String
  | [] => blocked
  | entry :: rest =>
    if entry.2.dependsOn blocked then blockedAfter (blockedBehind blocked entry) rest
    else blockedAfter blocked rest

theorem delayed_append (blocked : List String) (first second : List (String × Literal)) :
    delayed blocked (first ++ second) =
      delayed blocked first ++ delayed (blockedAfter blocked first) second := by
  induction first generalizing blocked with
  | nil => rfl
  | cons entry rest induction =>
    rw [List.cons_append, delayed, delayed, blockedAfter]
    split
    · rw [induction, List.cons_append]
    · exact induction blocked

theorem prompt_append (blocked : List String) (first second : List (String × Literal)) :
    prompt blocked (first ++ second) =
      prompt blocked first ++ prompt (blockedAfter blocked first) second := by
  induction first generalizing blocked with
  | nil => rfl
  | cons entry rest induction =>
    rw [List.cons_append, prompt, prompt, blockedAfter]
    split
    · exact induction _
    · rw [induction, List.cons_append]

theorem mem_blockedBehind :
    name ∈ blockedBehind blocked entry ↔ name ∈ blocked ∨ entry.2.isValue ∧ entry.1 = name := by
  unfold blockedBehind
  split
  · rename_i isValue
    simp [isValue, or_comm, eq_comm]
  · rename_i noValue
    simp [noValue]

/-- Besides the blocked names, the values that have been put off block what comes behind. -/
theorem mem_blockedAfter : name ∈ blockedAfter blocked literals ↔
    name ∈ blocked ∨ ∃ value ∈ delayed blocked literals, value.2.isValue ∧ value.1 = name := by
  fun_induction delayed blocked literals with
  | case1 => simp [blockedAfter]
  | case2 blocked first rest depends induction =>
    rw [blockedAfter, if_pos depends, induction, mem_blockedBehind, or_assoc]
    simp
  | case3 blocked first rest free induction => rw [blockedAfter, if_neg free, induction]

section

variable {before behind : List (String × Literal)}
  (distinct : ((before ++ entry :: behind).map Prod.fst).Nodup)

include distinct

theorem not_mem_before : entry.1 ∉ before.map Prod.fst := by
  intro member
  rw [List.map_append] at distinct
  exact (List.nodup_append.mp distinct).2.2 entry.1 member entry.1 List.mem_cons_self rfl

theorem not_mem_behind : entry.1 ∉ behind.map Prod.fst := by
  rw [List.map_append] at distinct
  exact (List.nodup_cons.mp (List.nodup_append.mp distinct).2.1).1

theorem mem_delayed_iff :
    entry ∈ delayed blocked (before ++ entry :: behind) ↔
      entry.2.dependsOn (blockedAfter blocked before) := by
  rw [delayed_append, List.mem_append, delayed]
  have notBefore : entry ∉ delayed blocked before := fun member =>
    not_mem_before distinct (List.mem_map_of_mem ((sublist_delayed _ _).subset member))
  have notBehind : ∀ others, entry ∉ delayed others behind := fun others member =>
    not_mem_behind distinct (List.mem_map_of_mem ((sublist_delayed _ _).subset member))
  split
  · rename_i depends
    exact iff_of_true (.inr List.mem_cons_self) depends
  · rename_i free
    exact iff_of_false (not_or.mpr ⟨notBefore, notBehind _⟩) free

/-- Whether a literal is put off is decided by the literals before it. -/
theorem mem_delayed_before {value : String × Literal} (member : value ∈ before) :
    value ∈ delayed blocked (before ++ entry :: behind) ↔ value ∈ delayed blocked before := by
  rw [delayed_append, List.mem_append]
  refine or_iff_left fun later => ?_
  have listed := (sublist_delayed _ _).subset later
  rw [List.map_append] at distinct
  exact (List.nodup_append.mp distinct).2.2 value.1 (List.mem_map_of_mem member) value.1
    (List.mem_map_of_mem listed) rfl

end

/-! ## A second pass and fewer names -/

theorem delayed_mono {fewer : List String} (subset : fewer ⊆ blocked)
    (literals : List (String × Literal)) :
    delayed fewer literals ⊆ delayed blocked literals := by
  induction literals generalizing fewer blocked with
  | nil => exact List.nil_subset _
  | cons first rest induction =>
    have behind : fewer ⊆ blockedBehind blocked first := fun name member =>
      mem_blockedBehind.mpr (.inl (subset member))
    have behindBoth : blockedBehind fewer first ⊆ blockedBehind blocked first := fun name member =>
      mem_blockedBehind.mpr ((mem_blockedBehind.mp member).imp_left (subset ·))
    by_cases depends : first.2.dependsOn fewer
    · have dependsToo : first.2.dependsOn blocked := by
        obtain ⟨name, mentions, member⟩ := Literal.dependsOn_iff.mp depends
        exact Literal.dependsOn_iff.mpr ⟨name, mentions, subset member⟩
      rw [delayed, if_pos depends, delayed, if_pos dependsToo]
      exact List.cons_subset_cons first (induction behindBoth)
    · rw [delayed, if_neg depends, delayed]
      split
      · exact List.subset_cons_of_subset first (induction behind)
      · exact induction subset

theorem settleEach_delayed (blocked : List String) (literals : List (String × Literal))
    (state : ModuleState) :
    settleEach blocked (delayed blocked literals) state =
      (delayed blocked literals).foldl (fun state entry => state.postpone entry.1 entry.2)
        state := by
  fun_induction delayed blocked literals generalizing state with
  | case1 => rfl
  | case2 blocked first rest depends induction =>
    rw [settleEach, if_pos depends, List.foldl_cons]
    exact induction _
  | case3 blocked first rest free induction => exact induction state

theorem foldl_postpone (distinct : (literals.map Prod.fst).Nodup)
    (fresh : ∀ name ∈ literals.map Prod.fst, ¬ state.literals.contains name)
    (wait : ∀ name ∈ literals.map Prod.fst, name ∈ state.pending) :
    literals.foldl (fun state entry => state.postpone entry.1 entry.2) state =
      { state with literals := ⟨state.literals.entries ++ literals⟩ } := by
  induction literals generalizing state with
  | nil => rw [List.foldl_nil, List.append_nil]
  | cons first rest induction =>
    obtain ⟨name, literal⟩ := first
    obtain ⟨absent, distinct⟩ := List.nodup_cons.mp distinct
    have postponed : state.postpone name literal =
        { state with literals := ⟨state.literals.entries ++ [(name, literal)]⟩ } := by
      have inserted := OrderedMap.entries_insert_of_not_contains
        (fresh name List.mem_cons_self) literal
      have waits : addNew name state.pending = state.pending :=
        if_pos (wait name List.mem_cons_self)
      unfold postpone await
      rw [waits, ← inserted]
    rw [List.foldl_cons, induction distinct ?_ ?_, postponed, List.append_assoc]
    · rfl
    · intro other member known
      rcases literals_contains_postpone.mp known with equal | known
      · exact absent (equal ▸ member)
      · exact fresh other (List.mem_cons_of_mem _ member) known
    · exact fun other member => mem_await.mpr (.inr (wait other (List.mem_cons_of_mem _ member)))

/-! ## States -/

theorem settleEach_of_not_mem_prompt (absent : name ∉ (prompt blocked literals).map Prod.fst) :
    (settleEach blocked literals state).table.get? name = state.table.get? name ∧
      (settleEach blocked literals state).symbols.get? name = state.symbols.get? name := by
  induction literals generalizing blocked state with
  | nil => exact ⟨rfl, rfl⟩
  | cons first rest induction =>
    rw [prompt] at absent
    unfold settleEach
    split at absent
    · rename_i depends
      rw [if_pos depends]
      exact induction absent
    · rename_i free
      rw [List.map_cons, List.mem_cons, not_or] at absent
      rw [if_neg free]
      refine ⟨(induction absent.2).1.trans ?_, (induction absent.2).2.trans ?_⟩
      · rw [get?_table_settle, if_neg absent.1]
      · rw [get?_symbols_settle, if_neg fun same => absent.1 same.1]

theorem symbols_settleAll_of_no_value
    (noValue : ∀ entry ∈ literals, entry.1 = name → entry.2.isValue = false) :
    (state.settleAll literals).symbols.get? name = state.symbols.get? name := by
  induction literals generalizing state with
  | nil => rfl
  | cons first rest induction =>
    have noValueBehind : ∀ entry ∈ rest, entry.1 = name → entry.2.isValue = false :=
      fun entry member => noValue entry (List.mem_cons_of_mem _ member)
    refine (induction noValueBehind).trans ?_
    rw [get?_symbols_settle, if_neg]
    rintro ⟨rfl, isValue⟩
    rw [noValue first List.mem_cons_self rfl] at isValue
    cases isValue

theorem get?_symbols_settleAll (absent : name ∉ literals.map Prod.fst) :
    (state.settleAll literals).symbols.get? name = state.symbols.get? name := by
  apply symbols_settleAll_of_no_value
  rintro entry member rfl
  exact absurd (List.mem_map_of_mem member) absent

/-- What settling leaves and what it settles. A literal is left exactly when it mentions a blocked
name or a value that comes before it and is left too. -/
structure SettlesExactly (blocked : List String) (state later : ModuleState) : Prop where
  remains : ∀ before name literal behind,
    settlementOrder state.literals.entries = before ++ (name, literal) :: behind →
      (later.literals.contains name ↔
        ∃ word ∈ mentionedNames literal.raw, word ∈ blocked ∨
          ∃ value ∈ before, value.2.isValue ∧ value.1 = word ∧ later.literals.contains word)
  /-- What is left is as it was, and waits. -/
  left : ∀ name literal, later.literals.get? name = some literal →
    state.literals.get? name = some literal ∧ name ∈ later.pending ∧
      later.table.get? name = state.table.get? name ∧
      later.symbols.get? name = state.symbols.get? name
  /-- What is not left has got a text, which is substituted for it if it is a value. -/
  settled : ∀ name literal, state.literals.get? name = some literal →
    ¬ later.literals.contains name → name ∉ later.pending ∧
      ∃ text, later.table.get? name = some (.plain .literal text) ∧
        later.symbols.get? name =
          if literal.isValue then some text else state.symbols.get? name
  /-- What is left stays in its order. -/
  ordered : later.literals.entries.Sublist (settlementOrder state.literals.entries)

section

variable (distinct : state.literals.keys.Nodup)

include distinct

theorem entries_settleLiterals (blocked : List String) :
    (state.settleLiterals blocked).literals.entries =
      delayed blocked (settlementOrder state.literals.entries) := by
  have fresh : ∀ name ∈ (settlementOrder state.literals.entries).map Prod.fst,
      ¬ ({ state with literals := .empty } : ModuleState).literals.contains name :=
    fun _ _ => nofun
  exact entries_settleEach (nodup_settlementOrder distinct) fresh blocked

theorem nodup_delayed (blocked : List String) :
    ((delayed blocked (settlementOrder state.literals.entries)).map Prod.fst).Nodup :=
  (nodup_settlementOrder distinct).sublist ((sublist_delayed _ _).map _)

theorem contains_settleLiterals_iff (blocked : List String)
    (member : entry ∈ settlementOrder state.literals.entries) :
    (state.settleLiterals blocked).literals.contains entry.1 ↔
      entry ∈ delayed blocked (settlementOrder state.literals.entries) := by
  rw [OrderedMap.contains_iff_mem_keys, OrderedMap.keys, entries_settleLiterals distinct]
  refine ⟨fun listed => ?_, List.mem_map_of_mem⟩
  obtain ⟨other, isDelayed, sameName⟩ := List.mem_map.mp listed
  have same : other = entry := List.inj_on_of_nodup_map (nodup_settlementOrder distinct)
    ((sublist_delayed _ _).subset isDelayed) member sameName
  exact same ▸ isDelayed

theorem not_mem_prompt (member : entry ∈ delayed blocked (settlementOrder state.literals.entries)) :
    entry.1 ∉ (prompt blocked (settlementOrder state.literals.entries)).map Prod.fst := by
  have whole := ((perm_prompt_delayed blocked (settlementOrder state.literals.entries)).map
    Prod.fst).nodup_iff.mpr (nodup_settlementOrder distinct)
  rw [List.map_append] at whole
  exact fun isPrompt => (List.nodup_append.mp whole).2.2 _ isPrompt _ (List.mem_map_of_mem member)
    rfl

theorem settlesExactly_settleLiterals (blocked : List String) :
    SettlesExactly blocked state (state.settleLiterals blocked) where
  remains before name literal behind order := by
    have distinctOrder := nodup_settlementOrder distinct
    have contains := fun entry (member : entry ∈ settlementOrder state.literals.entries) =>
      contains_settleLiterals_iff distinct blocked member
    rw [order] at distinctOrder contains
    rw [contains (name, literal) (by simp), mem_delayed_iff distinctOrder, Literal.dependsOn_iff]
    refine exists_congr fun word => and_congr_right fun _ => ?_
    rw [mem_blockedAfter]
    refine or_congr_right ⟨?_, ?_⟩
    · rintro ⟨value, isDelayed, isValue, rfl⟩
      have member := (sublist_delayed _ _).subset isDelayed
      refine ⟨value, member, isValue, rfl, (contains value (List.mem_append_left _ member)).mpr ?_⟩
      exact (mem_delayed_before distinctOrder member).mpr isDelayed
    · rintro ⟨value, member, isValue, rfl, isLeft⟩
      refine ⟨value, ?_, isValue, rfl⟩
      exact (mem_delayed_before distinctOrder member).mp
        ((contains value (List.mem_append_left _ member)).mp isLeft)
  left name literal found := by
    have isLeft := OrderedMap.mem_entries_of_get? found
    have waits : name ∈ (state.settleLiterals blocked).pending :=
      waits_settleLiterals distinct (OrderedMap.contains_of_mem_entries isLeft)
    have known := OrderedMap.get?_of_mem distinct (mem_literals_settleLiterals isLeft)
    rw [entries_settleLiterals distinct] at isLeft
    exact ⟨known, waits, settleEach_of_not_mem_prompt (not_mem_prompt distinct isLeft)⟩
  settled name literal found noMore := by
    have listed := mem_settlementOrder.mpr (OrderedMap.mem_entries_of_get? found)
    have isPrompt : (name, literal) ∈ prompt blocked (settlementOrder state.literals.entries) := by
      have either := (perm_prompt_delayed blocked _).mem_iff.mpr listed
      refine (List.mem_append.mp either).resolve_right fun isDelayed => noMore ?_
      exact (contains_settleLiterals_iff distinct blocked listed).mpr isDelayed
    have distinctPrompt :=
      (nodup_settlementOrder distinct).sublist ((sublist_prompt blocked _).map _)
    have alike := alike_settleLiterals (.refl state) rfl blocked
    obtain ⟨text, gives⟩ := gives_settleAll distinctPrompt isPrompt state
    refine ⟨fun waits => ?_, text, alike.gives gives |>.table, ?_⟩
    · rcases mem_pending_settleLiterals waits with ⟨-, unknown⟩ | isLeft
      · exact unknown (OrderedMap.contains_of_mem_entries (OrderedMap.mem_entries_of_get? found))
      · exact noMore isLeft
    · cases isValue : literal.isValue with
      | true => exact (alike.gives gives).symbol isValue
      | false =>
        refine (alike.symbols name).trans ?_
        refine symbols_settleAll_of_no_value fun entry member same => ?_
        have sameEntry : entry = (name, literal) :=
          List.inj_on_of_nodup_map distinctPrompt member isPrompt same
        rw [sameEntry, isValue]
  ordered := by
    rw [entries_settleLiterals distinct]
    exact sublist_delayed _ _

theorem settleLiterals_settleLiterals (blocked : List String) :
    (state.settleLiterals blocked).settleLiterals blocked = state.settleLiterals blocked := by
  have left := entries_settleLiterals distinct blocked
  have wait : ∀ name ∈ (delayed blocked (settlementOrder state.literals.entries)).map Prod.fst,
      name ∈ (state.settleLiterals blocked).pending := by
    intro name member
    refine waits_settleLiterals distinct ((OrderedMap.contains_iff_mem_keys _ _).mpr ?_)
    rwa [OrderedMap.keys, left]
  have fresh : ∀ name ∈ (delayed blocked (settlementOrder state.literals.entries)).map Prod.fst,
      ¬ ({ state.settleLiterals blocked with literals := .empty } :
        ModuleState).literals.contains name := fun _ _ => nofun
  rw [settleLiterals, left, settlementOrder_delayed, settleEach_delayed,
    foldl_postpone (nodup_delayed distinct blocked) fresh wait, ← left]
  rfl

/-- Settling leaves exactly what has to be left, leaves it again when it is done again, and leaves
no more when fewer names are blocked. -/
theorem settlement_is_exact (blocked : List String) :
    SettlesExactly blocked state (state.settleLiterals blocked) ∧
      (state.settleLiterals blocked).settleLiterals blocked = state.settleLiterals blocked ∧
      ∀ fewer, fewer ⊆ blocked → ∀ name,
        (state.settleLiterals fewer).literals.contains name →
          (state.settleLiterals blocked).literals.contains name := by
  refine ⟨settlesExactly_settleLiterals distinct blocked,
    settleLiterals_settleLiterals distinct blocked, fun fewer subset name isLeft => ?_⟩
  rw [OrderedMap.contains_iff_mem_keys, OrderedMap.keys,
    entries_settleLiterals distinct] at isLeft ⊢
  exact List.map_subset _ (delayed_mono subset _) isLeft

end

/-- Values that mention a blocked name, themselves, each other and a later value, and exports that
stand before them. -/
def chained : ModuleState :=
  { ModuleState.empty with
    literals := ⟨[("shown", ⟨"outer own", false, .start⟩), ("inner", ⟨"tone 1px", true, .start⟩),
      ("own", ⟨"own late", true, .start⟩), ("outer", ⟨"calc(inner)", true, .start⟩),
      ("late", ⟨"red", true, .start⟩), ("plain", ⟨"own", false, .start⟩)]⟩
    pending := ["shown", "inner", "own", "outer", "late", "plain"] }

theorem chained_settles_exactly :
    chained.literals.keys.Nodup ∧
      SettlesExactly ["tone"] chained (chained.settleLiterals ["tone"]) ∧
      (chained.settleLiterals ["tone"]).literals.keys = ["inner", "outer", "shown"] ∧
      (chained.settleLiterals ["tone"]).settleLiterals ["tone"] =
        chained.settleLiterals ["tone"] ∧
      [] ⊆ ["tone"] ∧
      ∀ name, (chained.settleLiterals []).literals.contains name →
        (chained.settleLiterals ["tone"]).literals.contains name := by
  have distinct : chained.literals.keys.Nodup := by decide +kernel
  have subset : [] ⊆ ["tone"] := List.nil_subset _
  obtain ⟨exactly, again, fewer⟩ := settlement_is_exact distinct ["tone"]
  exact ⟨distinct, exactly, by decide +kernel, again, subset, fewer [] subset⟩

end ScopedStyles.ModuleState
