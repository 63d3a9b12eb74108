import ScopedStyles.Proofs.Composition.Merging
import ScopedStyles.Proofs.Exports.Flags

/-!
Token tables after any calls. A call writes the entry of one name: it declares what the name is, or
adds names to it. Whatever calls are made of an empty table, its keys are the names of the calls in
the order of their first use, and every entry names itself first, repeats nothing, is of one kind,
and says so when names have been added.
-/

namespace ScopedStyles

namespace TokenEntry

variable {entry : TokenEntry}

/-! ## Sound entries -/

/-- An entry whose names and flags belong together. -/
structure IsSound (entry : TokenEntry) : Prop where
  leads : entry.names.head? = some entry.primary
  distinct : entry.names.Nodup
  single : ∃! flag : TokenFlag, flag ∈ entry.flags ∧ flag.isKind
  noted : entry.composed ≠ [] → ∃ isExternal, TokenFlag.composed isExternal ∈ entry.flags

theorem isSound_plain (kind : TokenKind) (primary : String) : (plain kind primary).IsSound where
  leads := rfl
  distinct := List.pairwise_singleton _ primary
  single := by
    refine ⟨kind.flag, ⟨List.mem_singleton_self _, by cases kind <;> rfl⟩, fun other isOther => ?_⟩
    exact List.mem_singleton.mp isOther.1
  noted added := absurd rfl added

theorem IsSound.rename (sound : entry.IsSound) (noLiteral : ¬ entry.isLiteral)
    (generated : String) : (entry.rename generated).IsSound where
  leads := rfl
  distinct := by
    refine List.nodup_cons.mpr ⟨?_, (List.nodup_cons.mp sound.distinct).2.filter _⟩
    simp [TokenEntry.rename]
  single := by
    refine ⟨.localName, ⟨(mem_flags_rename noLiteral generated).mpr (.inl rfl), rfl⟩, ?_⟩
    rintro other ⟨isSet, isKind⟩
    rcases (mem_flags_rename noLiteral generated).mp isSet with isLocal | ⟨wasSet, noGlobal⟩
    · exact isLocal
    · cases other with
      | localName => rfl
      | globalName => exact absurd rfl noGlobal
      | literal => exact absurd (literal_mem_flags.mp wasSet) noLiteral
      | composedLocal => cases isKind
      | composedExternal => cases isKind
  noted added := by
    have hadAdded : entry.composed ≠ [] := by
      rintro nothing
      exact added (by simp [TokenEntry.rename, nothing])
    obtain ⟨isExternal, isSet⟩ := sound.noted hadAdded
    refine ⟨isExternal, (mem_flags_rename noLiteral generated).mpr (.inr ⟨isSet, ?_⟩)⟩
    cases isExternal <;> decide

theorem nodup_foldl_addNew {values : List String} (distinct : values.Nodup)
    (names : List String) : (names.foldl (fun all name => addNew name all) values).Nodup := by
  induction names generalizing values with
  | nil => exact distinct
  | cons name rest induction => exact induction (nodup_addNew distinct)

theorem IsSound.add (sound : entry.IsSound) (names : List String) (isExternal : Bool) :
    (entry.add names isExternal).IsSound where
  leads := rfl
  distinct := by
    rw [names_add]
    exact nodup_foldl_addNew sound.distinct names
  single := by
    obtain ⟨flag, ⟨isSet, isKind⟩, only⟩ := sound.single
    refine ⟨flag, ⟨(mem_flags_add names isExternal).mpr (.inl isSet), isKind⟩, ?_⟩
    rintro other ⟨otherSet, otherKind⟩
    rcases (mem_flags_add names isExternal).mp otherSet with wasSet | rfl
    · exact only other ⟨wasSet, otherKind⟩
    · cases isExternal <;> cases otherKind
  noted _ := ⟨isExternal, (mem_flags_add names isExternal).mpr (.inr rfl)⟩

end TokenEntry

/-! ## Calls -/

namespace TokenTable

inductive Call where
  | declareLocal (name generated : String)
  | declareGlobal (name : String)
  | declareLiteral (name value : String)
  | compose (name : String) (names : List String) (isExternal : Bool)
deriving DecidableEq, Repr

namespace Call

def name : Call → String
  | .declareLocal name _ | .declareGlobal name | .declareLiteral name _ | .compose name _ _ => name

def apply (table : TokenTable) : Call → TokenTable
  | .declareLocal name generated => table.declareLocal name generated
  | .declareGlobal name => table.declareGlobal name
  | .declareLiteral name value => table.declareLiteral name value
  | .compose name names isExternal => table.compose name names isExternal

def applyFlagged (table : FlaggedTable) : Call → FlaggedTable
  | .declareLocal name generated => table.declareLocal name generated
  | .declareGlobal name => table.declareGlobal name
  | .declareLiteral name value => table.declareLiteral name value
  | .compose name names isExternal => table.compose name names isExternal

theorem matches_apply {flagged : FlaggedTable} {table : TokenTable}
    (same : flagged.Matches table) (call : Call) :
    (call.applyFlagged flagged).Matches (call.apply table) := by
  cases call with
  | declareLocal name generated => exact same.declareLocal name generated
  | declareGlobal name => exact same.declareGlobal name
  | declareLiteral name value => exact same.declareLiteral name value
  | compose name names isExternal => exact same.compose name names isExternal

/-- What a call does: it leaves the table as it is, which has the name already, or writes a sound
entry of its name, if the table is sound. -/
theorem apply_cases (call : Call) (table : TokenTable) :
    (table.contains call.name ∧ call.apply table = table) ∨
      ∃ entry, call.apply table = table.put call.name entry ∧
        ((∀ known, table.get? call.name = some known → known.IsSound) → entry.IsSound) := by
  cases call with
  | declareLocal name generated =>
    refine .inr ?_
    change ∃ entry, table.declareLocal name generated = table.put name entry ∧
      ((∀ known, table.get? name = some known → known.IsSound) → entry.IsSound)
    unfold TokenTable.declareLocal
    split
    · rename_i known found
      split
      · exact ⟨_, rfl, fun _ => TokenEntry.isSound_plain _ _⟩
      · rename_i noLiteral
        exact ⟨_, rfl, fun sound => (sound known found).rename noLiteral generated⟩
    · exact ⟨_, rfl, fun _ => TokenEntry.isSound_plain _ _⟩
  | declareGlobal name =>
    by_cases known : table.contains name
    · exact .inl ⟨known, if_pos known⟩
    · exact .inr ⟨_, if_neg known, fun _ => TokenEntry.isSound_plain _ _⟩
  | declareLiteral name value =>
    exact .inr ⟨_, rfl, fun _ => TokenEntry.isSound_plain _ _⟩
  | compose name names isExternal =>
    refine .inr ⟨_, rfl, fun sound => ?_⟩
    change ∀ known, table.get? name = some known → known.IsSound at sound
    cases found : table.get? name with
    | none => exact (TokenEntry.isSound_plain .localName name).add names isExternal
    | some known => exact (sound known found).add names isExternal

theorem keys_apply (call : Call) (table : TokenTable) :
    (call.apply table).keys = addNew call.name table.keys := by
  rcases call.apply_cases table with ⟨known, same⟩ | ⟨entry, writes, -⟩
  · have member : call.name ∈ table.keys := (OrderedMap.contains_iff_mem_keys _ _).mp known
    rw [same, addNew, if_pos member]
  · rw [writes]
    exact OrderedMap.keys_insert _ _ _

theorem get?_apply_of_ne (call : Call) (table : TokenTable) {other : String}
    (different : other ≠ call.name) : (call.apply table).get? other = table.get? other := by
  rcases call.apply_cases table with ⟨-, same⟩ | ⟨entry, writes, -⟩
  · rw [same]
  · rw [writes]
    exact OrderedMap.get?_insert_of_ne _ different entry

end Call

/-- Every entry that is found in a table is sound. -/
def IsSound (table : TokenTable) : Prop :=
  ∀ name entry, table.get? name = some entry → entry.IsSound

theorem IsSound.apply {table : TokenTable} (sound : table.IsSound) (call : Call) :
    (call.apply table).IsSound := by
  intro name entry found
  rcases call.apply_cases table with ⟨-, same⟩ | ⟨written, writes, isSound⟩
  · exact sound name entry (same ▸ found)
  · rw [writes] at found
    change (table.entries.insert call.name written).get? name = some entry at found
    rw [OrderedMap.get?_insert] at found
    split at found
    · rw [← Option.some.inj found]
      exact isSound (sound call.name)
    · exact sound name entry found

/-! ## Runs -/

def applyAll (table : TokenTable) (calls : List Call) : TokenTable :=
  calls.foldl (fun table call => call.apply table) table

def applyAllFlagged (table : FlaggedTable) (calls : List Call) : FlaggedTable :=
  calls.foldl (fun table call => call.applyFlagged table) table

theorem matches_applyAll {flagged : FlaggedTable} {table : TokenTable}
    (same : flagged.Matches table) (calls : List Call) :
    (applyAllFlagged flagged calls).Matches (table.applyAll calls) := by
  induction calls generalizing flagged table with
  | nil => exact same
  | cons call rest induction => exact induction (Call.matches_apply same call)

theorem applyAll_append (table : TokenTable) (calls more : List Call) :
    table.applyAll (calls ++ more) = (table.applyAll calls).applyAll more :=
  List.foldl_append

theorem keys_applyAll (table : TokenTable) (calls : List Call) :
    (table.applyAll calls).keys =
      (calls.map Call.name).foldl (fun keys name => addNew name keys) table.keys := by
  induction calls generalizing table with
  | nil => rfl
  | cons call rest induction => rw [List.map_cons, List.foldl_cons, ← call.keys_apply,
      ← induction, applyAll, applyAll, List.foldl_cons]

theorem prefix_foldl_addNew (keys names : List String) :
    keys <+: names.foldl (fun keys name => addNew name keys) keys := by
  induction names generalizing keys with
  | nil => exact List.prefix_rfl
  | cons name rest induction =>
    refine List.IsPrefix.trans ?_ (induction (addNew name keys))
    unfold addNew
    split
    · exact List.prefix_rfl
    · exact List.prefix_append _ _

theorem IsSound.applyAll {table : TokenTable} (sound : table.IsSound) (calls : List Call) :
    (table.applyAll calls).IsSound := by
  induction calls generalizing table with
  | nil => exact sound
  | cons call rest induction => exact induction (sound.apply call)

/-- What is read of an entry with bits is what is read of the entry without them. -/
theorem flagged_runs_read_alike (calls : List Call) (name : String) :
    Option.Rel
      (fun entry flagged => flagged.names = entry.names ∧
        flagged.isLiteral = entry.isLiteral ∧ flagged.origin = entry.origin)
      ((empty.applyAll calls).get? name) ((applyAllFlagged .empty calls).get? name) := by
  have known := (matches_applyAll FlaggedTable.Matches.empty calls).found name
  generalize (empty.applyAll calls).get? name = entry,
    (applyAllFlagged .empty calls).get? name = flagged at known ⊢
  cases known with
  | none => exact .none
  | some matching => exact .some ⟨matching.names_eq, matching.isLiteral_eq, matching.origin_eq⟩

/-- A set of bits that matches a sound entry has the bit of one kind. -/
theorem IsSound.single_of_matches {flagged : FlaggedTable} {table : TokenTable}
    (sound : table.IsSound) (same : flagged.Matches table) {name : String}
    {entry : FlaggedEntry} (found : flagged.get? name = some entry) :
    ∃! flag : TokenFlag, entry.flags.contains flag ∧ flag.isKind := by
  obtain ⟨known, isKnown, matching⟩ := same.entry_of_get? found
  obtain ⟨flag, ⟨isSet, isKind⟩, only⟩ := (sound name known isKnown).single
  refine ⟨flag, ⟨(matching.flags flag).mpr isSet, isKind⟩, ?_⟩
  rintro other ⟨otherSet, otherKind⟩
  exact only other ⟨(matching.flags other).mp otherSet, otherKind⟩

/-- What holds after any calls, in any order: the keys are the names of the calls, each at its first
use, and further calls only add keys behind them; every entry is sound; and one more call changes
nothing but the entry of its name. With flags as bits the same calls make the same table, and each
entry has the bit of one kind. -/
theorem calls_keep_tables_sound (calls : List Call) :
    (empty.applyAll calls).keys = (calls.map Call.name).eraseDups ∧
      (empty.applyAll calls).keys.Nodup ∧
      (∀ more, (empty.applyAll calls).keys <+: (empty.applyAll (calls ++ more)).keys) ∧
      (∀ name entry, (empty.applyAll calls).get? name = some entry → entry.IsSound) ∧
      (∀ (call : Call) (other : String), other ≠ call.name →
        (empty.applyAll (calls ++ [call])).get? other = (empty.applyAll calls).get? other) ∧
      (applyAllFlagged .empty calls).Matches (empty.applyAll calls) ∧
      ∀ name entry, (applyAllFlagged .empty calls).get? name = some entry →
        ∃! flag : TokenFlag, entry.flags.contains flag ∧ flag.isKind := by
  have soundEmpty : empty.IsSound := fun name entry found => nomatch found
  have sound := soundEmpty.applyAll calls
  have same := matches_applyAll FlaggedTable.Matches.empty calls
  refine ⟨?_, ?_, fun more => ?_, sound, fun call other different => ?_, same, ?_⟩
  · rw [keys_applyAll]
    exact foldl_addNew_eraseDups [] _
  · rw [keys_applyAll]
    exact TokenEntry.nodup_foldl_addNew List.nodup_nil _
  · rw [applyAll_append, keys_applyAll (empty.applyAll calls)]
    exact prefix_foldl_addNew _ _
  · rw [applyAll_append]
    exact call.get?_apply_of_ne _ different
  · intro name entry found
    exact sound.single_of_matches same found

/-- A class that is declared again under a name that it composes, a literal that becomes a class,
and a global name that is composed. -/
def mixedCalls : List Call :=
  [.declareGlobal "g", .compose "g" ["x", "g"] true, .declareLocal "a" "a1",
    .compose "a" ["b", "a1", "b"] false, .declareLiteral "l" "1px", .declareLocal "a" "b",
    .declareLocal "l" "l1", .declareGlobal "a"]

theorem mixedCalls_keep_table_sound :
    (empty.applyAll mixedCalls).keys = ["g", "a", "l"] ∧
      (∃ entry, (empty.applyAll mixedCalls).get? "a" = some entry ∧ entry.IsSound ∧
        entry.names = ["b"]) ∧
      (∃ entry, (empty.applyAll mixedCalls).get? "g" = some entry ∧ entry.IsSound ∧
        entry.names = ["g", "x"] ∧ entry.flags = [.globalName, .composedExternal]) ∧
      "a" ≠ "l" ∧ (empty.applyAll (mixedCalls ++ [.declareLiteral "l" "2px"])).get? "a" =
        (empty.applyAll mixedCalls).get? "a" ∧
      (∃ entry, (applyAllFlagged .empty mixedCalls).get? "g" = some entry ∧
        entry.flags.bits = 0b01100#8 ∧
        ∃! flag : TokenFlag, entry.flags.contains flag ∧ flag.isKind) := by
  obtain ⟨keys, -, -, sound, others, -, single⟩ := calls_keep_tables_sound mixedCalls
  have different : "a" ≠ "l" := by decide
  have declared : (empty.applyAll mixedCalls).get? "a" =
      some ⟨"b", [], .localName, true, false⟩ := by decide +kernel
  have composed : (empty.applyAll mixedCalls).get? "g" =
      some ⟨"g", ["x"], .globalName, false, true⟩ := by decide +kernel
  have flagged : (applyAllFlagged .empty mixedCalls).get? "g" =
      some ⟨"g", ["x"], ⟨0b01100#8⟩⟩ := by decide +kernel
  exact ⟨keys.trans (by decide +kernel), ⟨_, declared, sound "a" _ declared, rfl⟩,
    ⟨_, composed, sound "g" _ composed, rfl, rfl⟩, different,
    others (.declareLiteral "l" "2px") "a" different,
    ⟨_, flagged, rfl, single "g" _ flagged⟩⟩

end TokenTable

end ScopedStyles
