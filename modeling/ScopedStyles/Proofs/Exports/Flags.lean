import ScopedStyles.Proofs.Foundation.Alike
import ScopedStyles.TokenTable

/-!
What is noted of an entry, as a set of flags. In one byte the flags are bits that are set and
cleared one at a time, and nothing in a byte keeps an entry from being local and global at once. A
table whose entries carry such bytes answers every call as the table of entries does.
-/

namespace ScopedStyles

inductive TokenFlag where
  | localName
  | composedLocal
  | composedExternal
  | globalName
  | literal
deriving DecidableEq, Repr

/-- Whether a flag says what the entry's own name is. -/
def TokenFlag.isKind : TokenFlag → Bool
  | .localName | .globalName | .literal => true
  | .composedLocal | .composedExternal => false

def TokenKind.flag : TokenKind → TokenFlag
  | .localName => .localName
  | .globalName => .globalName
  | .literal => .literal

/-- The flag of names that are added by composition. -/
def TokenFlag.composed (isExternal : Bool) : TokenFlag :=
  if isExternal then .composedExternal else .composedLocal

namespace TokenEntry

def flags (entry : TokenEntry) : List TokenFlag :=
  entry.kind.flag :: (if entry.composedLocal then [.composedLocal] else []) ++
    if entry.composedExternal then [.composedExternal] else []

variable {entry : TokenEntry} {flag : TokenFlag}

theorem mem_flags :
    flag ∈ entry.flags ↔ flag = entry.kind.flag ∨
      (entry.composedLocal ∧ flag = .composedLocal) ∨
        (entry.composedExternal ∧ flag = .composedExternal) := by
  unfold flags
  cases entry.composedLocal <;> cases entry.composedExternal <;> simp

theorem literal_mem_flags : .literal ∈ entry.flags ↔ entry.isLiteral := by
  rw [mem_flags, isLiteral]
  cases entry.kind <;> simp [TokenKind.flag]

/-- A new name of its own makes an entry local, and sets or clears nothing else. -/
theorem mem_flags_rename (noLiteral : ¬ entry.isLiteral) (generated : String) :
    flag ∈ (entry.rename generated).flags ↔
      flag = .localName ∨ flag ∈ entry.flags ∧ flag ≠ .globalName := by
  rw [mem_flags, mem_flags]
  cases kind : entry.kind with
  | localName => cases flag <;> simp [rename, TokenKind.flag]
  | globalName => cases flag <;> simp [rename, TokenKind.flag]
  | literal => exact absurd (by simp [isLiteral, kind]) noLiteral

theorem mem_flags_add (names : List String) (isExternal : Bool) :
    flag ∈ (entry.add names isExternal).flags ↔
      flag ∈ entry.flags ∨ flag = .composed isExternal := by
  rw [mem_flags, mem_flags]
  cases isExternal <;> cases flag <;> simp [add, TokenFlag.composed]

end TokenEntry

/-! ## Flags as bits -/

namespace TokenFlag

def position : TokenFlag → Nat
  | .localName => 0
  | .composedLocal => 1
  | .composedExternal => 2
  | .globalName => 3
  | .literal => 4

def bit (flag : TokenFlag) : BitVec 8 :=
  BitVec.twoPow 8 flag.position

theorem position_lt (flag : TokenFlag) : flag.position < 8 := by
  cases flag <;> decide

end TokenFlag

structure FlagSet where
  bits : BitVec 8
deriving DecidableEq, Repr

namespace FlagSet

def of (flag : TokenFlag) : FlagSet :=
  ⟨flag.bit⟩

def insert (set : FlagSet) (flag : TokenFlag) : FlagSet :=
  ⟨set.bits ||| flag.bit⟩

def remove (set : FlagSet) (flag : TokenFlag) : FlagSet :=
  ⟨set.bits &&& ~~~ flag.bit⟩

def contains (set : FlagSet) (flag : TokenFlag) : Bool :=
  set.bits &&& flag.bit == flag.bit

variable (set : FlagSet) (flag other : TokenFlag)

theorem contains_eq_getLsbD : set.contains flag = set.bits.getLsbD flag.position := by
  have nonzero : 0#8 ≠ BitVec.twoPow 8 flag.position := by
    cases flag <;> decide
  unfold contains TokenFlag.bit
  rw [BitVec.and_twoPow]
  split
  · rename_i isSet
    rw [isSet, beq_self_eq_true]
  · rename_i isClear
    rw [Bool.not_eq_true] at isClear
    rw [isClear, beq_eq_false_iff_ne]
    exact nonzero

theorem getLsbD_bit : flag.bit.getLsbD other.position = (flag == other) := by
  cases flag <;> cases other <;> decide

@[simp] theorem contains_of : (of flag).contains other = (flag == other) := by
  rw [contains_eq_getLsbD]
  exact getLsbD_bit flag other

@[simp] theorem contains_insert :
    (set.insert flag).contains other = (set.contains other || flag == other) := by
  rw [contains_eq_getLsbD, contains_eq_getLsbD, ← getLsbD_bit]
  exact BitVec.getLsbD_or

@[simp] theorem contains_remove :
    (set.remove flag).contains other = (set.contains other && !(flag == other)) := by
  rw [contains_eq_getLsbD, contains_eq_getLsbD, ← getLsbD_bit]
  change (set.bits &&& ~~~ flag.bit).getLsbD other.position = _
  rw [BitVec.getLsbD_and, BitVec.getLsbD_not, decide_eq_true other.position_lt, Bool.true_and]

end FlagSet

/-! ## Entries and tables with flags -/

/-- An entry that notes its kind and what has been added in one set. -/
structure FlaggedEntry where
  primary : String
  composed : List String
  flags : FlagSet
deriving DecidableEq, Repr

namespace FlaggedEntry

def plain (flag : TokenFlag) (primary : String) : FlaggedEntry :=
  ⟨primary, [], .of flag⟩

def names (entry : FlaggedEntry) : List String :=
  entry.primary :: entry.composed

def isLiteral (entry : FlaggedEntry) : Bool :=
  entry.flags.contains .literal

def origin (entry : FlaggedEntry) : Origin :=
  if entry.flags.contains .composedExternal then .composedExternal
  else if entry.flags.contains .composedLocal then .composedLocal
  else .own

def add (entry : FlaggedEntry) (names : List String) (isExternal : Bool) : FlaggedEntry :=
  { entry with
    composed := names.foldl
      (fun composed name => if name = entry.primary then composed else addNew name composed)
      entry.composed
    flags := entry.flags.insert (.composed isExternal) }

def rename (entry : FlaggedEntry) (generated : String) : FlaggedEntry :=
  { primary := generated
    composed := entry.composed.filter (· ≠ generated)
    flags := (entry.flags.remove .globalName).insert .localName }

structure Matches (flagged : FlaggedEntry) (entry : TokenEntry) : Prop where
  primary : flagged.primary = entry.primary
  composed : flagged.composed = entry.composed
  flags : ∀ flag, flagged.flags.contains flag ↔ flag ∈ entry.flags

variable {flagged : FlaggedEntry} {entry : TokenEntry}

theorem Matches.names_eq (same : flagged.Matches entry) : flagged.names = entry.names := by
  rw [names, same.primary, same.composed]
  rfl

theorem Matches.isLiteral_eq (same : flagged.Matches entry) :
    flagged.isLiteral = entry.isLiteral := by
  rw [Bool.eq_iff_iff, ← TokenEntry.literal_mem_flags]
  exact same.flags .literal

theorem Matches.origin_eq (same : flagged.Matches entry) : flagged.origin = entry.origin := by
  have isExternal : flagged.flags.contains .composedExternal = entry.composedExternal := by
    rw [Bool.eq_iff_iff, same.flags, TokenEntry.mem_flags]
    cases entry.kind <;> simp [TokenKind.flag]
  have isLocal : flagged.flags.contains .composedLocal = entry.composedLocal := by
    rw [Bool.eq_iff_iff, same.flags, TokenEntry.mem_flags]
    cases entry.kind <;> simp [TokenKind.flag]
  rw [origin, isExternal, isLocal]
  rfl

theorem matches_plain (kind : TokenKind) (primary : String) :
    (plain kind.flag primary).Matches (.plain kind primary) where
  primary := rfl
  composed := rfl
  flags flag := by
    rw [TokenEntry.mem_flags, plain, FlagSet.contains_of, beq_iff_eq, eq_comm]
    simp [TokenEntry.plain]

theorem Matches.add (same : flagged.Matches entry) (names : List String) (isExternal : Bool) :
    (flagged.add names isExternal).Matches (entry.add names isExternal) where
  primary := same.primary
  composed := by
    rw [FlaggedEntry.add, same.primary, same.composed]
    rfl
  flags flag := by
    rw [TokenEntry.mem_flags_add, ← same.flags, FlaggedEntry.add, FlagSet.contains_insert,
      Bool.or_eq_true, beq_iff_eq, eq_comm (a := flag)]

/-- The flag of a literal would stay, and there would be two kinds. -/
theorem Matches.rename (same : flagged.Matches entry) (noLiteral : ¬ entry.isLiteral)
    (generated : String) : (flagged.rename generated).Matches (entry.rename generated) where
  primary := rfl
  composed := by
    rw [FlaggedEntry.rename, same.composed]
    rfl
  flags flag := by
    rw [TokenEntry.mem_flags_rename noLiteral, ← same.flags, FlaggedEntry.rename]
    cases flag <;> simp

end FlaggedEntry

structure FlaggedTable where
  entries : OrderedMap String FlaggedEntry
deriving DecidableEq, Repr

namespace FlaggedTable

def empty : FlaggedTable := ⟨.empty⟩

def get? (table : FlaggedTable) (name : String) : Option FlaggedEntry :=
  table.entries.get? name

def put (table : FlaggedTable) (name : String) (entry : FlaggedEntry) : FlaggedTable :=
  ⟨table.entries.insert name entry⟩

def declareLocal (table : FlaggedTable) (name generated : String) : FlaggedTable :=
  match table.get? name with
  | some entry =>
    if entry.isLiteral then table.put name (.plain .localName generated)
    else table.put name (entry.rename generated)
  | none => table.put name (.plain .localName generated)

def declareGlobal (table : FlaggedTable) (name : String) : FlaggedTable :=
  if table.entries.contains name then table else table.put name (.plain .globalName name)

def declareLiteral (table : FlaggedTable) (name value : String) : FlaggedTable :=
  table.put name (.plain .literal value)

def compose (table : FlaggedTable) (name : String) (names : List String) (isExternal : Bool) :
    FlaggedTable :=
  let entry := (table.get? name).getD (.plain .localName name)
  table.put name (entry.add names isExternal)

/-- The same keys in the same order, with entries that match. -/
def Matches (flagged : FlaggedTable) (table : TokenTable) : Prop :=
  table.entries.Alike (fun _ entry other => other.Matches entry) flagged.entries

namespace Matches

variable {flagged : FlaggedTable} {table : TokenTable}

theorem empty : FlaggedTable.empty.Matches .empty :=
  OrderedMap.Alike.empty

theorem found (same : flagged.Matches table) (name : String) :
    Option.Rel (fun entry other => other.Matches entry) (table.get? name) (flagged.get? name) :=
  OrderedMap.Alike.get? same name

theorem entry_of_get? (same : flagged.Matches table) {name : String} {other : FlaggedEntry}
    (isThere : flagged.get? name = some other) :
    ∃ entry, table.get? name = some entry ∧ other.Matches entry := by
  have known := same.found name
  rw [isThere] at known
  generalize table.get? name = entry at known ⊢
  cases known with
  | @some entry _ matching => exact ⟨entry, rfl, matching⟩

theorem put (same : flagged.Matches table) {entry : TokenEntry} {other : FlaggedEntry}
    (matching : other.Matches entry) (name : String) :
    (flagged.put name other).Matches (table.put name entry) :=
  OrderedMap.Alike.insert same matching

theorem declareLocal (same : flagged.Matches table) (name generated : String) :
    (flagged.declareLocal name generated).Matches (table.declareLocal name generated) := by
  have known := same.found name
  unfold FlaggedTable.declareLocal TokenTable.declareLocal
  generalize table.get? name = entry, flagged.get? name = other at known ⊢
  cases known with
  | none => exact same.put (FlaggedEntry.matches_plain .localName generated) name
  | @some entry _ matching =>
    simp only [matching.isLiteral_eq]
    by_cases literal : entry.isLiteral
    · rw [if_pos literal, if_pos literal]
      exact same.put (FlaggedEntry.matches_plain .localName generated) name
    · rw [if_neg literal, if_neg literal]
      exact same.put (matching.rename literal generated) name

theorem declareGlobal (same : flagged.Matches table) (name : String) :
    (flagged.declareGlobal name).Matches (table.declareGlobal name) := by
  have known : flagged.entries.contains name = table.contains name :=
    OrderedMap.Alike.contains_eq same name
  unfold FlaggedTable.declareGlobal TokenTable.declareGlobal
  rw [known]
  split
  · exact same
  · exact same.put (FlaggedEntry.matches_plain .globalName name) name

theorem declareLiteral (same : flagged.Matches table) (name value : String) :
    (flagged.declareLiteral name value).Matches (table.declareLiteral name value) :=
  same.put (FlaggedEntry.matches_plain .literal value) name

theorem compose (same : flagged.Matches table) (name : String) (names : List String)
    (isExternal : Bool) :
    (flagged.compose name names isExternal).Matches (table.compose name names isExternal) := by
  have known := same.found name
  unfold FlaggedTable.compose TokenTable.compose
  generalize table.get? name = entry, flagged.get? name = other at known ⊢
  cases known with
  | none => exact same.put ((FlaggedEntry.matches_plain .localName name).add names isExternal) name
  | some matching => exact same.put (matching.add names isExternal) name

end Matches

end FlaggedTable

end ScopedStyles
