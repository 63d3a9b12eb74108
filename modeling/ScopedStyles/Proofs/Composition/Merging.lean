import ScopedStyles.Graph.Resolution
import ScopedStyles.Proofs.Composition.Names

/-!
Composing into an entry one composition after the other comes to the union of all of them.
-/

namespace ScopedStyles

theorem addNew_eraseDups (value : String) (values : List String) :
    addNew value values.eraseDups = (values ++ [value]).eraseDups := by
  rw [List.eraseDups_append]
  unfold addNew
  by_cases member : value ∈ values
  · simp [member, List.removeAll]
  · simp [member, List.removeAll, List.eraseDups_cons]

/-- Adding values to a list without repetition, one after the other. -/
theorem foldl_addNew_eraseDups (values others : List String) :
    others.foldl (fun all value => addNew value all) values.eraseDups =
      (values ++ others).eraseDups := by
  induction others generalizing values with
  | nil => rw [List.foldl_nil, List.append_nil]
  | cons value rest induction =>
    rw [List.foldl_cons, addNew_eraseDups, induction, List.append_assoc, List.singleton_append]

namespace TokenEntry

theorem names_add (entry : TokenEntry) (names : List String) (isExternal : Bool) :
    (entry.add names isExternal).names =
      names.foldl (fun all name => addNew name all) entry.names := by
  suffices general : ∀ composed : List String,
      entry.primary :: names.foldl (fun composed name =>
          if name = entry.primary then composed else addNew name composed) composed =
        names.foldl (fun all name => addNew name all) (entry.primary :: composed) from
    general entry.composed
  induction names with
  | nil => exact fun _ => rfl
  | cons name rest induction =>
    intro composed
    rw [List.foldl_cons, List.foldl_cons, induction]
    congr 1
    by_cases equal : name = entry.primary
    · simp [addNew, equal]
    · by_cases member : name ∈ composed <;> simp [addNew, equal, member]

end TokenEntry

namespace Project

theorem mergeNames_map (composition : Composition) (named : Reference → List String) :
    Resolution.mergeNames (composition.references.map named) = added named composition := by
  simp [Resolution.mergeNames, added, List.filterMap_map, List.flatMap_map]

theorem union_concat (primary : String) (compositions : List Composition)
    (composition : Composition) (named : Reference → List String) :
    union primary (compositions ++ [composition]) named =
      (added named composition).foldl (fun all name => addNew name all)
        (union primary compositions named) := by
  rw [union, union, foldl_addNew_eraseDups]
  simp [List.flatMap_append]

end Project

end ScopedStyles
