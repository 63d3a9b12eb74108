import ScopedStyles.Proofs.Exports.ReadingBack

/-!
Names that are exported under a second key. The names of a table always have their own keys; a
second key is given to the first name that asks for it, unless a name of the table is spelled so.
-/

namespace ScopedStyles

namespace OrderedMap

variable {κ : Type u} {ν : Type v} [DecidableEq κ]

theorem get?_insertIfNew (map : OrderedMap κ ν) (key other : κ) (value : ν) :
    (map.insertIfNew key value).get? other =
      (map.get? other).or (if other = key then some value else none) := by
  have contained : map.contains key = (map.get? key).isSome := rfl
  rw [insertIfNew, contained]
  cases found : map.get? key with
  | some old =>
    rw [Option.isSome_some, if_pos rfl]
    by_cases equal : other = key
    · rw [equal, found, Option.some_or]
    · rw [if_neg equal, Option.or_none]
  | none =>
    rw [Option.isSome_none, if_neg Bool.false_ne_true, get?_insert]
    by_cases equal : other = key
    · rw [if_pos equal, if_pos equal, equal, found, Option.none_or]
    · rw [if_neg equal, if_neg equal, Option.or_none]

end OrderedMap

/-- The second key that a convention gives to names. -/
def Convention.secondKey? : Convention → Option (String → String)
  | .camelCase => some ScopedStyles.camelCase
  | .dashes => some dashesCamelCase
  | .asIs | .camelCaseOnly | .dashesOnly | .custom _ => none

/-- The names of the first entry whose second key this is. -/
def TokenTable.firstNamed (second : String → String) (key : String)
    (entries : List (String × TokenEntry)) : Option String :=
  (entries.find? fun entry => second entry.1 = key).map fun entry => entry.2.joined

namespace Exports

section

variable {convention : Convention} {second : String → String} {file : Path} {key : String}

/-- What one name adds: its own key, which replaces whatever the key stood for, and its second key,
which replaces nothing. -/
theorem get?_extend (gives : convention.secondKey? = some second) (exported : Exports)
    (name value : String) :
    (convention.extend file exported name value).get? key =
      if key = name then some value
      else (exported.get? key).or (if key = second name then some value else none) := by
  have extended : convention.extend file exported name value =
      (exported.insert name value).insertIfNew (second name) value := by
    cases convention <;> cases gives <;> rfl
  rw [extended, OrderedMap.get?_insertIfNew, OrderedMap.get?_insert]
  split
  · rw [Option.some_or]
  · rfl

/-- What a row of names with different spellings adds, by induction on the row: the own key of a
later name takes the place of second keys that were given before it. -/
theorem get?_foldl_extend (gives : convention.secondKey? = some second)
    {entries : List (String × TokenEntry)} (distinct : (entries.map Prod.fst).Nodup)
    (exported : Exports) :
    (entries.foldl (fun exported (name, entry) =>
        convention.extend file exported name entry.joined) exported).get? key =
      ((OrderedMap.findEntry key entries).map TokenEntry.joined).or
        ((exported.get? key).or (TokenTable.firstNamed second key entries)) := by
  induction entries generalizing exported with
  | nil => simp [OrderedMap.findEntry, TokenTable.firstNamed]
  | cons first rest induction =>
    rcases first with ⟨name, entry⟩
    rw [List.map_cons, List.nodup_cons] at distinct
    rw [List.foldl_cons, induction distinct.2, get?_extend gives, OrderedMap.findEntry]
    by_cases isOwn : name = key
    · have notLater : OrderedMap.findEntry key rest = none := by
        rw [← Option.not_isSome_iff_eq_none, OrderedMap.findEntry_isSome_iff, ← isOwn]
        exact distinct.1
      simp [isOwn, notLater]
    · rw [if_neg isOwn, if_neg (Ne.symm isOwn), Option.or_assoc]
      by_cases isSecond : second name = key
      · simp [TokenTable.firstNamed, isSecond]
      · simp [TokenTable.firstNamed, isSecond, Ne.symm isSecond]

/-- What a key stands for: the name that is spelled so, and else the first name whose second key it
is. -/
theorem get?_ofTable {table : TokenTable} (distinct : table.keys.Nodup)
    (gives : convention.secondKey? = some second) :
    (ofTable table convention file).get? key =
      ((table.get? key).map TokenEntry.joined).or
        (TokenTable.firstNamed second key table.toList) := by
  have distinctNames : (table.toList.map Prod.fst).Nodup := distinct
  rw [ofTable, get?_foldl_extend gives distinctNames, OrderedMap.get?_empty, Option.none_or]
  rfl

end

/-- Every name of a table is exported with its own names. Every other key is the second key of a
name, with the names of the first one in the table that has it; and all second keys are there. -/
theorem second_keys_never_displace_names {table : TokenTable} (distinct : table.keys.Nodup)
    {convention : Convention} {second : String → String}
    (gives : convention.secondKey? = some second) (file : Path) :
    (ofTable table convention file).keys.Nodup ∧
      (∀ name entry, (name, entry) ∈ table.toList →
        (ofTable table convention file).get? name = some entry.joined) ∧
      ∀ key, key ∉ table.keys → ∀ value,
        (ofTable table convention file).get? key = some value ↔
          ∃ before name entry after, table.toList = before ++ (name, entry) :: after ∧
            second name = key ∧ (∀ other ∈ before, second other.1 ≠ key) ∧
            entry.joined = value := by
  refine ⟨nodup_keys_ofTable table convention file, ?_, ?_⟩
  · intro name entry member
    have own : table.get? name = some entry := OrderedMap.get?_of_mem distinct member
    rw [get?_ofTable distinct gives, own, Option.map_some, Option.some_or]
  · intro key absent value
    have noOwn : table.get? key = none := by
      rw [← Option.not_isSome_iff_eq_none]
      exact mt (OrderedMap.contains_iff_mem_keys table.entries key).mp absent
    rw [get?_ofTable distinct gives, noOwn, Option.map_none, Option.none_or,
      TokenTable.firstNamed, Option.map_eq_some_iff]
    constructor
    · rintro ⟨⟨name, entry⟩, found, joined⟩
      rcases List.find?_eq_some_iff_append.mp found with ⟨isSecond, before, after, whole, none⟩
      exact ⟨before, name, entry, after, whole, by simpa using isSecond,
        fun other member => by simpa using none other member, joined⟩
    · rintro ⟨before, name, entry, after, whole, isSecond, none, joined⟩
      refine ⟨(name, entry), List.find?_eq_some_iff_append.mpr ?_, joined⟩
      exact ⟨by simpa using isSecond, before, after, whole,
        fun other member => by simpa using none other member⟩

/-- A name whose second key is spelled like the next name, and two names with one second key in
camel case, but not where only dashes begin a word. -/
def buttons : TokenTable :=
  (((TokenTable.empty.declareLocal "btn-x" "1").declareLocal "btnX" "2").declareLocal
    "btn_y" "3").declareLocal "btn-y" "4"

theorem buttons_keep_their_keys :
    buttons.keys.Nodup ∧ Convention.camelCase.secondKey? = some camelCase ∧
      (ofTable buttons .camelCase ⟨.slash, []⟩).entries =
        [("btn-x", "1"), ("btnX", "2"), ("btn_y", "3"), ("btnY", "3"), ("btn-y", "4")] ∧
      (ofTable buttons .camelCase ⟨.slash, []⟩).get? "btnX" = some "2" ∧
      ((ofTable buttons .camelCase ⟨.slash, []⟩).get? "btnY" = some "3" ↔
        ∃ before name entry after, buttons.toList = before ++ (name, entry) :: after ∧
          camelCase name = "btnY" ∧ (∀ other ∈ before, camelCase other.1 ≠ "btnY") ∧
          entry.joined = "3") ∧
      Convention.dashes.secondKey? = some dashesCamelCase ∧
      (ofTable buttons .dashes ⟨.slash, []⟩).entries =
        [("btn-x", "1"), ("btnX", "2"), ("btn_y", "3"), ("btn-y", "4"), ("btnY", "4")] ∧
      (ofTable buttons .dashes ⟨.slash, []⟩).get? "btnX" = some "2" ∧
      ((ofTable buttons .dashes ⟨.slash, []⟩).get? "btnY" = some "4" ↔
        ∃ before name entry after, buttons.toList = before ++ (name, entry) :: after ∧
          dashesCamelCase name = "btnY" ∧ (∀ other ∈ before, dashesCamelCase other.1 ≠ "btnY") ∧
          entry.joined = "4") := by
  have distinct : buttons.keys.Nodup := by decide +kernel
  have camelKeys := second_keys_never_displace_names distinct
    (show Convention.camelCase.secondKey? = some camelCase from rfl) ⟨.slash, []⟩
  have dashKeys := second_keys_never_displace_names distinct
    (show Convention.dashes.secondKey? = some dashesCamelCase from rfl) ⟨.slash, []⟩
  have member : ("btnX", TokenEntry.plain .localName "2") ∈ buttons.toList := by decide +kernel
  have absent : "btnY" ∉ buttons.keys := by decide +kernel
  exact ⟨distinct, rfl, by decide +kernel, camelKeys.2.1 "btnX" _ member,
    camelKeys.2.2 "btnY" absent "3", rfl, by decide +kernel, dashKeys.2.1 "btnX" _ member,
    dashKeys.2.2 "btnY" absent "4"⟩

end Exports

end ScopedStyles
