import ScopedStyles.Proofs.Module.Records

/-!
The `@value` rules that the walk over a sheet comes to, each with what has been recorded before it.
Reading such a rule can fail, when it imports through a name that holds no path, and it depends on
nothing but the records before it. A walk that fails for want of a path fails at one of these rules.
-/

namespace ScopedStyles

open Text

/-- A `@value` rule that the walk comes to, and the records before and behind those it makes. -/
structure ValuePlace where
  before : List Record
  params : String
  location : Location
  behind : List Record
deriving DecidableEq, Repr

namespace ValuePlace

def within (front back : List Record) (place : ValuePlace) : ValuePlace :=
  { place with before := front ++ place.before, behind := place.behind ++ back }

/-- All records from the first to the last. -/
def records (place : ValuePlace) : List Record :=
  place.before ++ Collect.valueRecords place.params place.location ++ place.behind

@[simp] theorem records_within (front back : List Record) (place : ValuePlace) :
    (place.within front back).records = front ++ place.records ++ back := by
  simp [records, within]

end ValuePlace

namespace Collect

section

variable (context : FileContext)

mutual
/-- The `@value` rules of a node that the walk comes to. -/
def valuePlaces (frame : Frame) : Node → List ValuePlace
  | .rule selector body _ =>
    match Mode.ofBlockSelector? selector with
    | some mode => valuePlacesAll { frame with mode } body
    | none =>
      if (importSpecifier? selector).isSome || trim selector = ":export" || frame.inKeyframes then []
      else
        match annotateSelectors selector frame.mode with
        | .error _ => []
        | .ok selectors =>
          (valuePlacesAll (frame.inRule selectors) body).map
            (.within (nameRecords context selectors ++ compositionRecords selectors body) [])
  | .block name params body location =>
    if isValueRule name then [⟨[], params, location, []⟩]
    else
      (valuePlacesAll
        { frame with inKeyframes := frame.inKeyframes || Keyframes.isKeyframes name } body).map
        (.within (paramsRecords context frame name params) [])
  | .statement name params location =>
    if isValueRule name then [⟨[], params, location, []⟩] else []
  | .declaration _ | .comment .. => []

def valuePlacesAll (frame : Frame) : List Node → List ValuePlace
  | [] => []
  | first :: rest =>
    (valuePlaces frame first).map (.within [] (nodesRecords context frame rest)) ++
      (valuePlacesAll frame rest).map (.within (nodeRecords context frame first) [])
end

theorem valuePlaces_rule (frame : Frame) (selector : String) (body : List Node)
    (location : Location) :
    valuePlaces context frame (.rule selector body location) =
      match ruleKind frame.mode frame.inKeyframes selector with
      | .wrapper mode => valuePlacesAll context { frame with mode } body
      | .imports _ | .exports | .step | .refused _ => []
      | .ordinary selectors =>
        (valuePlacesAll context (frame.inRule selectors) body).map
          (.within (nameRecords context selectors ++ compositionRecords selectors body) []) := by
  unfold valuePlaces
  generalize isKind : ruleKind frame.mode frame.inKeyframes selector = kind
  cases of_ruleKind isKind <;> simp [*]

/-- The `@value` rules of a sheet that the walk comes to. -/
def sheetPlaces (sheet : Stylesheet) : List ValuePlace :=
  valuePlacesAll context ⟨context.mode, false, false⟩ sheet

/-- What comes of a `@value` rule in its place, behind what has been collected before the sheet. -/
def outcomeAt (collection : Collection) (place : ValuePlace) : Except Failure Unit × Collection :=
  outcome (recordValue context place.params place.location)
    (collection.replay context place.before)

end

/-! ## Records around a place -/

variable {context : FileContext}

theorem records_of_mem_map {front back inner : List Record} {places : List ValuePlace}
    {place : ValuePlace} (inside : ∀ other ∈ places, other.records = inner)
    (member : place ∈ places.map (.within front back)) :
    place.records = front ++ inner ++ back := by
  rcases List.mem_map.mp member with ⟨other, listed, rfl⟩
  rw [ValuePlace.records_within, inside other listed]

mutual
/-- A rule makes its records between those before it and those behind it. -/
theorem records_of_mem_valuePlaces (frame : Frame) (place : ValuePlace) :
    (item : Node) → place ∈ valuePlaces context frame item →
      place.records = nodeRecords context frame item
  | .rule selector body _ => by
    rw [valuePlaces_rule, nodeRecords_rule]
    cases ruleKind frame.mode frame.inKeyframes selector with
    | wrapper mode => exact records_of_mem_valuePlacesAll { frame with mode } place body
    | imports _ | exports | step | refused _ => exact fun member => nomatch member
    | ordinary selectors =>
      intro member
      have records := records_of_mem_map (fun other => records_of_mem_valuePlacesAll
        (frame.inRule selectors) other body) member
      rwa [List.append_nil] at records
  | .block name params body location => by
    intro member
    unfold valuePlaces at member
    unfold nodeRecords
    split at member
    · rename_i isValue
      rw [if_pos isValue, List.mem_singleton.mp member]
      exact List.append_nil _
    · rename_i noValue
      have records := records_of_mem_map (fun other => records_of_mem_valuePlacesAll _ other body)
        member
      rwa [if_neg noValue, ← List.append_nil (_ ++ _)]
  | .statement name params location => by
    intro member
    unfold valuePlaces at member
    unfold nodeRecords
    split at member
    · rename_i isValue
      rw [if_pos isValue, List.mem_singleton.mp member]
      exact List.append_nil _
    · cases member
  | .declaration _ => by
    intro member
    unfold valuePlaces at member
    cases member
  | .comment .. => by
    intro member
    unfold valuePlaces at member
    cases member

theorem records_of_mem_valuePlacesAll (frame : Frame) (place : ValuePlace) :
    (items : List Node) → place ∈ valuePlacesAll context frame items →
      place.records = nodesRecords context frame items
  | [] => by
    intro member
    unfold valuePlacesAll at member
    cases member
  | first :: rest => by
    intro member
    unfold valuePlacesAll at member
    unfold nodesRecords
    rcases List.mem_append.mp member with isFirst | isLater
    · exact records_of_mem_map (fun other => records_of_mem_valuePlaces frame other first) isFirst
    · have records := records_of_mem_map (fun other => records_of_mem_valuePlacesAll frame other
        rest) isLater
      rwa [List.append_nil] at records
end

theorem records_of_mem_sheetPlaces {sheet : Stylesheet} {place : ValuePlace}
    (reached : place ∈ sheetPlaces context sheet) : place.records = sheetRecords context sheet :=
  records_of_mem_valuePlacesAll _ place sheet reached

/-! ## Failing for want of a path -/

/-- An action that fails for want of a path fails at one of these rules. -/
def StopsAt (context : FileContext) (places : List ValuePlace) (action : Collecting α) : Prop :=
  ∀ collection failure after, outcome action collection = (.error failure, after) →
    failure.cause.kind = .resolution →
      ∃ place ∈ places, outcomeAt context collection place = (.error failure, after)

namespace StopsAt

variable {places others : List ValuePlace}

theorem of_outcome {action : Collecting α}
    (never : ∀ collection failure after, outcome action collection = (.error failure, after) →
      failure.cause.kind ≠ .resolution) : StopsAt context places action :=
  fun collection failure after failed kind => absurd kind (never collection failure after failed)

theorem pure (value : α) : StopsAt context places (Pure.pure value) :=
  of_outcome nofun

theorem update (change : ModuleState → ModuleState) :
    StopsAt context places (Collect.update change) :=
  of_outcome nofun

theorem fail {location : Location} {cause : Cause} (other : cause.kind ≠ .resolution) :
    StopsAt context places (Collect.fail context location cause : Collecting α) := by
  apply of_outcome
  intro collection failure after failed
  cases failed
  exact other

theorem bind {action : Collecting α} {next : α → Collecting β} {value : α} {records : List Record}
    (gathers : Gathers context action value records) (first : StopsAt context places action)
    (second : StopsAt context others (next value)) :
    StopsAt context (places ++ others.map (.within records [])) (action >>= next) := by
  intro collection failure after failed kind
  have gathered := gathers.comes collection
  rw [outcome_bind] at failed
  cases ending : outcome action collection with
  | mk result middle =>
    rw [ending] at failed gathered
    cases result with
    | error other =>
      cases failed
      rcases first collection failure after ending kind with ⟨place, listed, stops⟩
      exact ⟨place, List.mem_append_left _ listed, stops⟩
    | ok result =>
      rcases gathered with ⟨rfl, rfl⟩
      rcases second _ failure after failed kind with ⟨place, listed, stops⟩
      refine ⟨place.within records [], List.mem_append_right _ (List.mem_map_of_mem listed), ?_⟩
      rw [outcomeAt, ValuePlace.within, Collection.replay_append]
      exact stops

theorem before {action : Collecting α} {next : α → Collecting β}
    (first : StopsAt context places action) (rest : ∀ value, StopsAt context [] (next value)) :
    StopsAt context places (action >>= next) := by
  intro collection failure after failed kind
  rw [outcome_bind] at failed
  cases ending : outcome action collection with
  | mk result middle =>
    rw [ending] at failed
    cases result with
    | error other =>
      cases failed
      exact first collection failure after ending kind
    | ok value =>
      rcases rest value middle failure after failed kind with ⟨place, listed, -⟩
      cases listed

theorem give {action : Collecting α} (first : StopsAt context places action) (value : α → β) :
    StopsAt context places (action >>= fun result => Pure.pure (value result)) :=
  first.before fun result => pure (value result)

theorem ahead {action : Collecting α} (stops : StopsAt context places action)
    (back : List Record) : StopsAt context (places.map (.within [] back)) action := by
  intro collection failure after failed kind
  rcases stops collection failure after failed kind with ⟨place, listed, stopped⟩
  exact ⟨place.within [] back, List.mem_map_of_mem listed, stopped⟩

theorem forM {items : List ι} {action : ι → Collecting Unit}
    (each : ∀ item ∈ items, StopsAt context [] (action item)) :
    StopsAt context [] (items.forM action) := by
  induction items with
  | nil => exact pure ()
  | cons item rest induction =>
    change StopsAt context [] (action item >>= fun _ => rest.forM action)
    exact (each item List.mem_cons_self).before fun _ =>
      induction fun other member => each other (List.mem_cons_of_mem _ member)

end StopsAt

variable (context)

theorem stopsAt_recordValue (params : String) (location : Location) :
    StopsAt context [⟨[], params, location, []⟩] (recordValue context params location) := by
  intro collection failure after failed _
  refine ⟨_, List.mem_singleton.mpr rfl, ?_⟩
  have nothing : collection.replay context [] = collection := by simp [Collection.replay]
  rw [outcomeAt, nothing]
  exact failed

theorem stopsAt_scopeRule (frame : Frame) (selector : String) (body : List Node)
    (location : Location) :
    StopsAt context [] (scopeRule context frame selector body location) := by
  unfold scopeRule
  split
  · exact .fail (by simp [Cause.kind])
  · split
    · exact .fail (by simp [Cause.kind])
    · refine .before (.update _) fun _ => .give (.forM fun content _ => ?_) _
      split
      · exact .fail (by simp [Cause.kind])
      · exact .update _

theorem stopsAt_scopeParams (frame : Frame) (name params : String) :
    StopsAt context [] (scopeParams context frame name params) := by
  unfold scopeParams
  split
  · unfold scopeKeyframes
    dsimp only
    split
    · exact .give (.update _) _
    · split
      · exact .give (.update _) _
      · exact .pure _
  · exact .pure params

mutual
theorem stopsAt_node (frame : Frame) (inRule : Bool) :
    (item : Node) → StopsAt context (valuePlaces context frame item)
      (node context frame inRule item)
  | .rule selector body location => by
    rw [node_rule, valuePlaces_rule]
    cases kind : ruleKind frame.mode frame.inKeyframes selector with
    | wrapper mode =>
      dsimp only
      split
      · exact .fail (by simp [Cause.kind])
      · exact stopsAt_nodes { frame with mode } false body
    | imports _ | exports => exact .give (.update _) _
    | step => exact .pure _
    | refused _ => exact .fail (by simp [Cause.kind])
    | ordinary selectors =>
      have scopes := stopsAt_scopeRule context frame selector body location
      have gathers := gathers_scopeRule context (annotated_of_ordinary kind) body location
      dsimp only
      rw [← List.nil_append (List.map _ _)]
      exact .bind gathers scopes (.give (stopsAt_nodes (frame.inRule selectors) true body) _)
  | .block name params body location => by
    unfold node valuePlaces
    split
    · exact .give (stopsAt_recordValue context params location) _
    · have gathers := gathers_scopeParams context frame name params
      rw [← List.nil_append (List.map _ _)]
      exact .bind gathers (stopsAt_scopeParams context frame name params)
        (.give (stopsAt_nodes _ false body) _)
  | .statement name params location => by
    unfold node valuePlaces
    split
    · exact .give (stopsAt_recordValue context params location) _
    · exact .give (stopsAt_scopeParams context frame name params) _
  | .declaration content => .pure _
  | .comment text location => .pure _

theorem stopsAt_nodes (frame : Frame) (inRule : Bool) :
    (items : List Node) → StopsAt context (valuePlacesAll context frame items)
      (nodes context frame inRule items)
  | [] => .pure []
  | first :: rest => by
    unfold nodes valuePlacesAll
    exact .bind (gathers_node context frame inRule first)
      ((stopsAt_node frame inRule first).ahead _) (.give (stopsAt_nodes frame inRule rest) _)
end

/-- Collecting that fails for want of a path fails at a `@value` rule of the sheet, in the state
that the records before it make. -/
theorem stopsAt_sheet (sheet : Stylesheet) :
    StopsAt context (sheetPlaces context sheet) (Collect.sheet context sheet) :=
  (stopsAt_nodes context _ false sheet).before fun _ => .give (.update _) _

end Collect

end ScopedStyles
