import Mathlib.Data.List.Forall2
import ScopedStyles.Foundation.OrderedMap

/-!
Maps with the same keys. Two maps are alike when they introduce the same keys in the same order, and
the two values of every key are alike; writing such values keeps them alike. One of two maps may
also have keys that the other one does not have.
-/

namespace ScopedStyles

/-- What two maps have for a key: values that are alike, or none, or a value that only the second
map may have. -/
inductive Beside {ν : Type v} {μ : Type w} (values : ν → μ → Prop) (extras : μ → Prop) :
    Option ν → Option μ → Prop where
  | both {value : ν} {other : μ} (alike : values value other) :
      Beside values extras (some value) (some other)
  | neither : Beside values extras none none
  | extra {other : μ} (extra : extras other) : Beside values extras none (some other)

theorem Beside.of_rel {ν : Type v} {μ : Type w} {values : ν → μ → Prop} {extras : μ → Prop}
    {value : Option ν} {other : Option μ} (alike : Option.Rel values value other) :
    Beside values extras value other := by
  cases alike with
  | some alike => exact .both alike
  | none => exact .neither

namespace OrderedMap

variable {κ : Type u} {ν : Type v} {μ : Type w}

/-- The same keys in the same order, with values that are alike. -/
def Alike (values : κ → ν → μ → Prop) (map : OrderedMap κ ν) (other : OrderedMap κ μ) : Prop :=
  List.Forall₂
    (fun entry otherEntry => otherEntry.1 = entry.1 ∧ values entry.1 entry.2 otherEntry.2)
    map.entries other.entries

namespace Alike

variable {values weaker : κ → ν → μ → Prop} {map : OrderedMap κ ν} {other : OrderedMap κ μ}

theorem empty : Alike values .empty .empty := .nil

theorem keys_eq (alike : map.Alike values other) : other.keys = map.keys := by
  obtain ⟨entries⟩ := map
  obtain ⟨others⟩ := other
  change List.Forall₂ _ entries others at alike
  change others.map Prod.fst = entries.map Prod.fst
  induction alike with
  | nil => rfl
  | cons head _ induction => rw [List.map_cons, List.map_cons, head.1, induction]

theorem isEmpty_eq (alike : map.Alike values other) : other.isEmpty = map.isEmpty := by
  obtain ⟨entries⟩ := map
  obtain ⟨others⟩ := other
  change List.Forall₂ _ entries others at alike
  cases alike <;> rfl

theorem eq {map other : OrderedMap κ ν}
    (alike : map.Alike (fun _ value same => same = value) other) : other = map := by
  obtain ⟨entries⟩ := map
  obtain ⟨others⟩ := other
  change List.Forall₂ _ entries others at alike
  congr 1
  induction alike with
  | nil => rfl
  | cons head _ induction => rw [induction, Prod.ext head.1 head.2]

/-- Values that are alike in a weaker sense, as far as they stand in the map. -/
theorem mono (alike : map.Alike values other)
    (weaken : ∀ key value otherValue, (key, value) ∈ map.entries →
      values key value otherValue → weaker key value otherValue) : map.Alike weaker other := by
  obtain ⟨entries⟩ := map
  obtain ⟨others⟩ := other
  change List.Forall₂ _ entries others at alike
  change ∀ key value otherValue, (key, value) ∈ entries → _ at weaken
  change List.Forall₂ _ entries others
  induction alike with
  | nil => exact .nil
  | @cons entry otherEntry rest otherRest head tail induction =>
    refine .cons ⟨head.1, weaken _ _ _ List.mem_cons_self head.2⟩ (induction ?_)
    exact fun key value otherValue member =>
      weaken key value otherValue (List.mem_cons_of_mem _ member)

variable [DecidableEq κ]

theorem get? (alike : map.Alike values other) (key : κ) :
    Option.Rel (values key) (map.get? key) (other.get? key) := by
  obtain ⟨entries⟩ := map
  obtain ⟨others⟩ := other
  change List.Forall₂ _ entries others at alike
  change Option.Rel _ (findEntry key entries) (findEntry key others)
  induction alike with
  | nil => exact .none
  | @cons entry otherEntry rest otherRest head tail induction =>
    obtain ⟨label, value⟩ := entry
    obtain ⟨otherLabel, otherValue⟩ := otherEntry
    obtain ⟨rfl, alike⟩ := head
    by_cases equal : otherLabel = key
    · subst equal
      simpa [findEntry] using Option.Rel.some alike
    · simpa [findEntry, equal] using induction

theorem contains_eq (alike : map.Alike values other) (key : κ) :
    other.contains key = map.contains key := by
  have found := alike.get? key
  unfold contains
  generalize map.get? key = value at found ⊢
  generalize other.get? key = otherValue at found ⊢
  cases found <;> rfl

theorem insert (alike : map.Alike values other) {key : κ} {value : ν} {otherValue : μ}
    (holds : values key value otherValue) :
    (map.insert key value).Alike values (other.insert key otherValue) := by
  obtain ⟨entries⟩ := map
  obtain ⟨others⟩ := other
  change List.Forall₂ _ entries others at alike
  change List.Forall₂ _ (writeEntry key value entries) (writeEntry key otherValue others)
  induction alike with
  | nil => exact .cons ⟨rfl, holds⟩ .nil
  | @cons entry otherEntry rest otherRest head tail induction =>
    obtain ⟨label, old⟩ := entry
    obtain ⟨otherLabel, otherOld⟩ := otherEntry
    obtain ⟨rfl, same⟩ := head
    by_cases equal : otherLabel = key
    · rw [writeEntry, writeEntry, if_pos equal, if_pos equal]
      exact .cons ⟨rfl, holds⟩ tail
    · rw [writeEntry, writeEntry, if_neg equal, if_neg equal]
      exact .cons ⟨rfl, same⟩ induction

end Alike

end OrderedMap

end ScopedStyles
