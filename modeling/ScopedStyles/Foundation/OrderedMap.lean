/-!
Finite maps that remember the order in which their keys were first introduced. Writing to a key
that is present keeps its position; removing a key moves the later ones up.
-/

namespace ScopedStyles

structure OrderedMap (κ : Type u) (ν : Type v) where
  entries : List (κ × ν)
deriving DecidableEq, Repr

namespace OrderedMap

variable {κ : Type u} {ν : Type v}

def empty : OrderedMap κ ν := ⟨[]⟩

instance : Inhabited (OrderedMap κ ν) := ⟨empty⟩

def keys (map : OrderedMap κ ν) : List κ :=
  map.entries.map Prod.fst

def values (map : OrderedMap κ ν) : List ν :=
  map.entries.map Prod.snd

def size (map : OrderedMap κ ν) : Nat :=
  map.entries.length

def isEmpty (map : OrderedMap κ ν) : Bool :=
  map.entries.isEmpty

variable [DecidableEq κ]

/-! ## Reading -/

/-- The value of the first entry with this key. -/
def findEntry (key : κ) : List (κ × ν) → Option ν
  | [] => none
  | (other, value) :: rest => if other = key then some value else findEntry key rest

def get? (map : OrderedMap κ ν) (key : κ) : Option ν :=
  findEntry key map.entries

def contains (map : OrderedMap κ ν) (key : κ) : Bool :=
  (map.get? key).isSome

/-! ## Writing -/

/-- Replace the value of `key` where it stands, or append a new entry. -/
def writeEntry (key : κ) (value : ν) : List (κ × ν) → List (κ × ν)
  | [] => [(key, value)]
  | (other, old) :: rest =>
    if other = key then (key, value) :: rest else (other, old) :: writeEntry key value rest

def insert (map : OrderedMap κ ν) (key : κ) (value : ν) : OrderedMap κ ν :=
  ⟨writeEntry key value map.entries⟩

def insertIfNew (map : OrderedMap κ ν) (key : κ) (value : ν) : OrderedMap κ ν :=
  if map.contains key then map else map.insert key value

/-- Later pairs overwrite earlier ones with the same key and keep their position. -/
def ofList (pairs : List (κ × ν)) : OrderedMap κ ν :=
  pairs.foldl (fun map pair => map.insert pair.1 pair.2) empty

def erase (map : OrderedMap κ ν) (key : κ) : OrderedMap κ ν :=
  ⟨map.entries.filter fun entry => entry.1 ≠ key⟩

example : (ofList [("b", 1), ("a", 2), ("b", 3)]).entries = [("b", 3), ("a", 2)] := by decide

/-! ## What a write changes -/

theorem findEntry_writeEntry_self (key : κ) (value : ν) (entries : List (κ × ν)) :
    findEntry key (writeEntry key value entries) = some value := by
  induction entries with
  | nil => simp [writeEntry, findEntry]
  | cons head tail induction =>
    obtain ⟨other, old⟩ := head
    by_cases equal : other = key <;> simp [writeEntry, findEntry, equal, induction]

theorem findEntry_writeEntry_of_ne {key other : κ} (different : other ≠ key) (value : ν)
    (entries : List (κ × ν)) :
    findEntry other (writeEntry key value entries) = findEntry other entries := by
  induction entries with
  | nil => simp [writeEntry, findEntry, different.symm]
  | cons head tail induction =>
    obtain ⟨label, old⟩ := head
    by_cases equal : label = key
    · subst equal
      simp [writeEntry, findEntry, different.symm]
    · simp [writeEntry, findEntry, equal, induction]

@[simp] theorem get?_insert_self (map : OrderedMap κ ν) (key : κ) (value : ν) :
    (map.insert key value).get? key = some value :=
  findEntry_writeEntry_self key value map.entries

theorem get?_insert_of_ne (map : OrderedMap κ ν) {key other : κ} (different : other ≠ key)
    (value : ν) : (map.insert key value).get? other = map.get? other :=
  findEntry_writeEntry_of_ne different value map.entries

theorem get?_insert (map : OrderedMap κ ν) (key other : κ) (value : ν) :
    (map.insert key value).get? other = if other = key then some value else map.get? other := by
  by_cases equal : other = key
  · subst equal
    simp
  · rw [if_neg equal, get?_insert_of_ne map equal]

theorem contains_insert (map : OrderedMap κ ν) (key other : κ) (value : ν) :
    (map.insert key value).contains other = (decide (other = key) || map.contains other) := by
  rw [contains, get?_insert]
  by_cases equal : other = key <;> simp [equal, contains]

@[simp] theorem get?_empty (key : κ) : (empty : OrderedMap κ ν).get? key = none := rfl

@[simp] theorem contains_empty (key : κ) : (empty : OrderedMap κ ν).contains key = false := rfl

theorem contains_iff_get? (map : OrderedMap κ ν) (key : κ) :
    map.contains key ↔ ∃ value, map.get? key = some value :=
  Option.isSome_iff_exists

theorem mem_of_findEntry {key : κ} {value : ν} {entries : List (κ × ν)}
    (found : findEntry key entries = some value) : (key, value) ∈ entries := by
  induction entries with
  | nil => simp [findEntry] at found
  | cons head tail induction =>
    obtain ⟨other, old⟩ := head
    by_cases equal : other = key
    · simp_all [findEntry]
    · rw [findEntry, if_neg equal] at found
      exact List.mem_cons_of_mem _ (induction found)

theorem mem_entries_of_get? {map : OrderedMap κ ν} {key : κ} {value : ν}
    (found : map.get? key = some value) : (key, value) ∈ map.entries :=
  mem_of_findEntry found

theorem findEntry_isSome_iff (key : κ) (entries : List (κ × ν)) :
    (findEntry key entries).isSome ↔ key ∈ entries.map Prod.fst := by
  induction entries with
  | nil => simp [findEntry]
  | cons head tail induction =>
    obtain ⟨other, value⟩ := head
    by_cases equal : other = key
    · simp [findEntry, equal]
    · simp [findEntry, equal, induction, Ne.symm equal]

theorem contains_iff_mem_keys (map : OrderedMap κ ν) (key : κ) :
    map.contains key ↔ key ∈ map.keys :=
  findEntry_isSome_iff key map.entries

theorem contains_of_mem_entries {map : OrderedMap κ ν} {entry : κ × ν}
    (member : entry ∈ map.entries) : map.contains entry.1 :=
  (contains_iff_mem_keys map entry.1).mpr (List.mem_map_of_mem member)

theorem keys_writeEntry (key : κ) (value : ν) (entries : List (κ × ν)) :
    (writeEntry key value entries).map Prod.fst =
      if key ∈ entries.map Prod.fst then entries.map Prod.fst
      else entries.map Prod.fst ++ [key] := by
  induction entries with
  | nil => simp [writeEntry]
  | cons head tail induction =>
    obtain ⟨other, old⟩ := head
    by_cases equal : other = key
    · subst equal
      simp [writeEntry]
    · simp only [writeEntry, equal, ↓reduceIte, List.map_cons, induction, List.mem_cons,
        Ne.symm equal, false_or]
      split <;> simp

/-- Where each key stands once, every entry is found. -/
theorem get?_of_mem {map : OrderedMap κ ν} (distinct : map.keys.Nodup) {key : κ} {value : ν}
    (member : (key, value) ∈ map.entries) : map.get? key = some value := by
  obtain ⟨entries⟩ := map
  change findEntry key entries = some value
  change (entries.map Prod.fst).Nodup at distinct
  induction entries with
  | nil => cases member
  | cons head tail induction =>
    obtain ⟨other, old⟩ := head
    rw [List.map_cons, List.nodup_cons] at distinct
    rcases List.mem_cons.mp member with equal | behind
    · rw [findEntry, (Prod.mk.inj equal).1, if_pos rfl, (Prod.mk.inj equal).2]
    · rw [findEntry, if_neg, induction behind distinct.2]
      rintro rfl
      exact distinct.1 (List.mem_map.mpr ⟨_, behind, rfl⟩)

theorem insert_eq_self {map : OrderedMap κ ν} {key : κ} {value : ν}
    (known : map.get? key = some value) : map.insert key value = map := by
  obtain ⟨entries⟩ := map
  change OrderedMap.mk (writeEntry key value entries) = ⟨entries⟩
  change findEntry key entries = some value at known
  congr 1
  induction entries with
  | nil => cases known
  | cons head tail induction =>
    obtain ⟨other, old⟩ := head
    rw [findEntry] at known
    rw [writeEntry]
    split
    · rename_i equal
      rw [if_pos equal, Option.some.injEq] at known
      rw [equal, known]
    · rename_i different
      rw [if_neg different] at known
      rw [induction known]

/-- A write appends a new key at the end and moves no other one. -/
theorem keys_insert (map : OrderedMap κ ν) (key : κ) (value : ν) :
    (map.insert key value).keys =
      if key ∈ map.keys then map.keys else map.keys ++ [key] :=
  keys_writeEntry key value map.entries

theorem entries_insert_of_not_contains {map : OrderedMap κ ν} {key : κ}
    (absent : ¬ map.contains key) (value : ν) :
    (map.insert key value).entries = map.entries ++ [(key, value)] := by
  rw [contains_iff_mem_keys] at absent
  obtain ⟨entries⟩ := map
  change writeEntry key value entries = entries ++ [(key, value)]
  change key ∉ entries.map Prod.fst at absent
  induction entries with
  | nil => rfl
  | cons first rest induction =>
    obtain ⟨other, old⟩ := first
    rw [List.map_cons, List.mem_cons, not_or] at absent
    rw [writeEntry, if_neg (Ne.symm absent.1), induction absent.2, List.cons_append]

theorem mem_entries_insert {map : OrderedMap κ ν} {key : κ} {value : ν}
    {entry : κ × ν} (member : entry ∈ (map.insert key value).entries) :
    entry = (key, value) ∨ entry ∈ map.entries := by
  obtain ⟨entries⟩ := map
  change entry ∈ writeEntry key value entries at member
  change _ ∨ entry ∈ entries
  induction entries with
  | nil => exact .inl (List.mem_singleton.mp member)
  | cons first rest induction =>
    obtain ⟨other, old⟩ := first
    rw [writeEntry] at member
    split at member
    · exact (List.mem_cons.mp member).imp_right (List.mem_cons_of_mem _)
    · rcases List.mem_cons.mp member with rfl | later
      · exact .inr List.mem_cons_self
      · exact (induction later).imp_right (List.mem_cons_of_mem _)

end OrderedMap

/-! ## Ordered sets -/

def addNew [DecidableEq α] (value : α) (values : List α) : List α :=
  if value ∈ values then values else values ++ [value]

theorem mem_addNew [DecidableEq α] {value other : α} {values : List α} :
    other ∈ addNew value values ↔ other = value ∨ other ∈ values := by
  unfold addNew
  split
  · constructor
    · exact Or.inr
    · rintro (rfl | member) <;> assumption
  · simp [or_comm]

theorem nodup_addNew [DecidableEq α] {value : α} {values : List α} (nodup : values.Nodup) :
    (addNew value values).Nodup := by
  unfold addNew
  split
  · exact nodup
  · rename_i absent
    rw [List.nodup_append]
    refine ⟨nodup, by simp, ?_⟩
    intro left member right single equal
    rw [List.mem_singleton] at single
    exact absent (single ▸ equal ▸ member)

theorem OrderedMap.nodup_keys_insert [DecidableEq κ] {map : OrderedMap κ ν}
    (distinct : map.keys.Nodup) (key : κ) (value : ν) : (map.insert key value).keys.Nodup := by
  rw [keys_insert]
  exact nodup_addNew distinct

end ScopedStyles
