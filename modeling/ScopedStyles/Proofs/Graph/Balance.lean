import ScopedStyles.Proofs.Graph.Evolution

/-!
Names are entered and left in pairs. Whatever a request comes to, and however deep in it something
fails, it leaves the names that it has entered and no others: afterwards the same names are being
resolved as before, and meanwhile no name is resolved twice.
-/

namespace ScopedStyles

open Compiling

/-- The names that are being resolved after an event, from the names before it. -/
def GraphEvent.resolvingAfter (event : GraphEvent) (names : List (Path × String)) :
    List (Path × String) :=
  match event with
  | .entered path name => names ++ [(path, name)]
  | .left => names.dropLast
  | _ => names

namespace Graph

variable {graph middle entered after moment : Graph} {moments : List Graph}

/-! ## Moments -/

/-- A single change: an event, with what it does to the names that are being resolved, or something
new about the files. -/
inductive Moves (graph : Graph) : Graph → Prop
  | event (event : GraphEvent) :
    Moves graph { graph.record event with resolving := event.resolvingAfter graph.resolving }
  | files (slots : OrderedMap Site Slot) (finished : List CompiledModule) :
    Moves graph { graph with slots, finished }

/-- The moments of a way from one graph to another, change by change. -/
inductive Passes : Graph → List Graph → Graph → Prop
  | stay (graph : Graph) : Passes graph [] graph
  | move {graph middle after : Graph} {moments : List Graph} (moves : graph.Moves middle)
    (rest : Passes middle moments after) : Passes graph (middle :: moments) after

theorem Moves.passes (moves : graph.Moves after) : graph.Passes [after] after :=
  .move moves (.stay after)

theorem Passes.append {others : List Graph} (first : graph.Passes moments middle)
    (second : middle.Passes others after) : graph.Passes (moments ++ others) after := by
  induction first with
  | stay => exact second
  | move moves _ induction => exact .move moves (induction second)

theorem Passes.cut (passes : graph.Passes moments after) (member : moment ∈ moments) :
    (∃ earlier, graph.Passes earlier moment) ∧ ∃ later, moment.Passes later after := by
  induction passes with
  | stay => cases member
  | @move graph middle after moments moves rest induction =>
    rcases List.mem_cons.mp member with rfl | member
    · exact ⟨⟨_, moves.passes⟩, _, rest⟩
    · obtain ⟨⟨earlier, reached⟩, later⟩ := induction member
      exact ⟨⟨_, .move moves reached⟩, later⟩

theorem Moves.trace (moves : graph.Moves after) : ∃ recent : List GraphEvent,
    recent.length ≤ 1 ∧ after.trace = recent ++ graph.trace ∧
      after.resolving = recent.foldr GraphEvent.resolvingAfter graph.resolving := by
  cases moves with
  | event event => exact ⟨[event], Nat.le_refl 1, rfl, rfl⟩
  | files => exact ⟨[], Nat.zero_le 1, rfl, rfl⟩

/-- The events of a way tell which names are being resolved at its end. -/
theorem Passes.trace (passes : graph.Passes moments after) : ∃ recent,
    after.trace = recent ++ graph.trace ∧
      after.resolving = recent.foldr GraphEvent.resolvingAfter graph.resolving := by
  induction passes with
  | stay => exact ⟨[], rfl, rfl⟩
  | move moves _ induction =>
    obtain ⟨first, _, firstTrace, firstResolving⟩ := moves.trace
    obtain ⟨recent, trace, resolving⟩ := induction
    exact ⟨recent ++ first, by rw [trace, firstTrace, List.append_assoc],
      by rw [resolving, firstResolving, List.foldr_append]⟩

theorem Passes.trace_suffix (passes : graph.Passes moments after) :
    graph.trace <:+ after.trace := by
  obtain ⟨recent, trace, _⟩ := passes.trace
  exact ⟨recent, trace.symm⟩

/-- Between the events at both ends of a way there are no others than those at its moments. -/
theorem Passes.exists_moment (passes : graph.Passes moments after) {trace : List GraphEvent}
    (behind : graph.trace <:+ trace) (before : trace <:+ after.trace) :
    ∃ moment ∈ graph :: moments, moment.trace = trace := by
  induction passes with
  | stay graph => exact ⟨graph, List.mem_cons_self, behind.eq_of_length_le before.length_le⟩
  | @move graph middle after moments moves rest induction =>
    obtain ⟨first, short, firstTrace, _⟩ := moves.trace
    by_cases new : trace.length ≤ graph.trace.length
    · exact ⟨graph, List.mem_cons_self, behind.eq_of_length_le new⟩
    · -- A change notes one event at most, so it skips none.
      have atMost : middle.trace.length ≤ trace.length := by
        rw [firstTrace, List.length_append]
        omega
      obtain ⟨moment, member, found⟩ :=
        induction (List.suffix_of_suffix_length_le rest.trace_suffix before atMost) before
      exact ⟨moment, List.mem_cons_of_mem _ member, found⟩

/-- On every way to a graph the same names are being resolved at the same event. -/
theorem Passes.exists_same {others : List Graph} (passes : graph.Passes moments after)
    (other : graph.Passes others after) (member : moment ∈ others) :
    ∃ same ∈ graph :: moments, same.resolving = moment.resolving := by
  obtain ⟨⟨_, earlier⟩, _, later⟩ := other.cut member
  obtain ⟨same, sameMember, sameTrace⟩ :=
    passes.exists_moment earlier.trace_suffix later.trace_suffix
  refine ⟨same, sameMember, ?_⟩
  obtain ⟨recent, trace, resolving⟩ := earlier.trace
  obtain ⟨_, reached⟩ : ∃ earlier, graph.Passes earlier same := by
    rcases List.mem_cons.mp sameMember with rfl | inside
    · exact ⟨[], .stay _⟩
    · exact (passes.cut inside).1
  obtain ⟨sameRecent, trace', resolving'⟩ := reached.trace
  have sameEvents : sameRecent = recent :=
    List.append_cancel_right (trace'.symm.trans (sameTrace.trans trace))
  rw [resolving', resolving, sameEvents]

/-! ## Pairs -/

/-- At a moment the names from before are still being resolved, and all names are different if these
were. -/
structure Within (graph moment : Graph) : Prop where
  outer : graph.resolving <+: moment.resolving
  distinct : graph.resolving.Nodup → moment.resolving.Nodup

theorem Within.of_eq (same : moment.resolving = graph.resolving) : graph.Within moment where
  outer := same ▸ List.prefix_refl _
  distinct := same ▸ id

theorem Within.trans (first : graph.Within middle) (second : middle.Within moment) :
    graph.Within moment where
  outer := first.outer.trans second.outer
  distinct := second.distinct ∘ first.distinct

theorem within_enter {path : Path} {name : String} (enters : graph.enter path name = .ok entered) :
    graph.Within entered := by
  obtain ⟨_, resolving, _⟩ := enter_eq_ok enters
  exact ⟨resolving ▸ List.prefix_append .., nodup_resolving_enter enters⟩

/-- Changes in which every name that is entered is left, after everything that is done for it. -/
inductive Balanced : Graph → Graph → Prop
  | refl (graph : Graph) : Balanced graph graph
  | quiet (graph : Graph) {event : GraphEvent}
    (quiet : ∀ names, event.resolvingAfter names = names) : Balanced graph (graph.record event)
  | files (graph : Graph) (slots : OrderedMap Site Slot) (finished : List CompiledModule) :
    Balanced graph { graph with slots, finished }
  | resolved {graph entered after : Graph} {path : Path} {name : String}
    (enters : graph.enter path name = .ok entered) (inside : Balanced entered after) :
    Balanced graph after.leave
  | trans {graph middle after : Graph} (first : Balanced graph middle)
    (second : Balanced middle after) : Balanced graph after

theorem Balanced.resolving (balanced : graph.Balanced after) :
    after.resolving = graph.resolving := by
  induction balanced with
  | refl | quiet | files => rfl
  | resolved enters _ induction => exact resolving_leave enters induction
  | trans _ _ first second => exact second.trans first

theorem moves_enter {path : Path} {name : String} (enters : graph.enter path name = .ok entered) :
    graph.Moves entered := by
  unfold enter at enters
  split at enters
  · cases enters
  · cases enters
    exact .event (.entered path name)

/-- Balanced changes are a way, on which the names from before stay. -/
theorem Balanced.exists_passes (balanced : graph.Balanced after) :
    ∃ moments, graph.Passes moments after ∧ ∀ moment ∈ moments, graph.Within moment := by
  induction balanced with
  | refl graph => exact ⟨[], .stay graph, nofun⟩
  | @quiet graph event quiet =>
    have moves : graph.Moves (graph.record event) := by
      have moves : graph.Moves _ := .event event
      rwa [quiet] at moves
    exact ⟨_, moves.passes, by simpa using .of_eq rfl⟩
  | files graph slots finished =>
    exact ⟨_, (Moves.files slots finished).passes, by simpa using .of_eq rfl⟩
  | @resolved graph entered after path name enters inside induction =>
    obtain ⟨moments, passes, within⟩ := induction
    refine ⟨_, .move (moves_enter enters) (passes.append (Moves.event .left).passes), ?_⟩
    -- What is done for the name lies between entering and leaving it.
    intro moment member
    have entering := within_enter enters
    rcases List.mem_cons.mp member with rfl | member
    · exact entering
    · rcases List.mem_append.mp member with member | member
      · exact entering.trans (within moment member)
      · obtain rfl := List.mem_singleton.mp member
        exact .of_eq (Balanced.resolved enters inside).resolving
  | trans first _ induction induction' =>
    obtain ⟨moments, passes, within⟩ := induction
    obtain ⟨others, further, withinMiddle⟩ := induction'
    refine ⟨_, passes.append further, fun moment member => ?_⟩
    rcases List.mem_append.mp member with member | member
    · exact within moment member
    · exact (Within.of_eq first.resolving).trans (withinMiddle moment member)

/-- On whichever way balanced changes are made, the names from before stay. -/
theorem Balanced.within (balanced : graph.Balanced after) (passes : graph.Passes moments after)
    (member : moment ∈ moments) : graph.Within moment := by
  obtain ⟨others, other, within⟩ := balanced.exists_passes
  obtain ⟨same, sameMember, resolving⟩ := other.exists_same passes member
  have withinSame : graph.Within same := by
    rcases List.mem_cons.mp sameMember with rfl | inside
    · exact .of_eq rfl
    · exact within same inside
  exact withinSame.trans (.of_eq resolving.symm)

end Graph

/-! ## Actions -/

namespace Compiling

/-- Whatever an action comes to, it leaves the names that it enters. -/
structure Balances (action : Compiling α) : Prop where
  balanced : ∀ graph : Graph, graph.Balanced (outcome action graph).2

namespace Balances

theorem pure (value : α) : Balances (Pure.pure value) where
  balanced graph := .refl graph

theorem throw (halt : Halt) : Balances (MonadExcept.throw halt : Compiling α) where
  balanced graph := .refl graph

theorem fail (site : Site) (location : Location) (cause : Cause) :
    Balances (Compiling.fail site location cause : Compiling α) := throw _

theorem get : Balances (MonadState.get : Compiling Graph) where
  balanced graph := .refl graph

theorem stateAt (site : Site) : Balances (Compiling.stateAt site) where
  balanced graph := .refl graph

theorem update (site : Site) (change : ModuleState → ModuleState) :
    Balances (Compiling.update site change) where
  balanced graph := .files graph _ graph.finished

theorem note {event : GraphEvent} (quiet : ∀ names, event.resolvingAfter names = names) :
    Balances (Compiling.note event) where
  balanced graph := .quiet graph quiet

theorem bind {action : Compiling α} {next : α → Compiling β} (first : Balances action)
    (rest : ∀ value, Balances (next value)) : Balances (action >>= next) := by
  constructor
  intro graph
  have begun := first.balanced graph
  rw [outcome_bind]
  generalize outcome action graph = ending at begun ⊢
  rcases ending with ⟨result, after⟩
  cases result with
  | ok value => exact begun.trans ((rest value).balanced after)
  | error halt => exact begun

theorem forM {action : ι → Compiling Unit} (each : ∀ item, Balances (action item))
    (items : List ι) : Balances (items.forM action) := by
  induction items with
  | nil => exact pure ()
  | cons item rest induction => exact bind (each item) fun _ => induction

theorem mapM {action : ι → Compiling α} (each : ∀ item, Balances (action item))
    (items : List ι) : Balances (items.mapM action) := by
  induction items with
  | nil =>
    rw [List.mapM_nil]
    exact pure []
  | cons item rest induction =>
    rw [List.mapM_cons]
    exact bind (each item) fun value => bind induction fun others => pure (value :: others)

/-- A name that is entered is left, unless it is being resolved already. -/
theorem whileResolving {path : Path} {name : String} {cyclic : List (Path × String) → Halt}
    {action : Compiling α} (inside : Balances action) :
    Balances (Compiling.whileResolving path name cyclic action) := by
  constructor
  intro graph
  rw [outcome_whileResolving]
  cases enters : graph.enter path name with
  | error chain => exact .refl graph
  | ok entered => exact .resolved enters (inside.balanced entered)

end Balances

end Compiling

/-! ## Requests -/

/-- Requests that leave the names that they enter. -/
structure Calls.Balance (calls : Calls) : Prop where
  load : ∀ specifier importer location, Balances (calls.load specifier importer location)
  resolveOwner : ∀ site owner, Balances (calls.resolveOwner site owner)

namespace Resolution

variable {calls : Calls}

theorem balances_ask (handle : Handle) (name : String) : Balances (ask handle name) := by
  refine .bind .get fun graph => ?_
  dsimp only
  split
  · exact .pure _
  · exact .bind (.note fun _ => rfl) fun _ => .pure _

theorem balances_settleInFlight (balance : calls.Balance) (path : Path) (name : String) :
    Balances (settleInFlight calls path name) := by
  refine .bind (.stateAt _) fun state => ?_
  split
  · exact balance.resolveOwner _ name
  · exact .update _ _

theorem balances_lookUp (balance : calls.Balance) (site : Site) (handle : Handle)
    (name requester specifier : String) (location : Location) :
    Balances (lookUp calls site handle name requester specifier location) := by
  refine .bind (balances_ask handle name) fun answer => ?_
  dsimp only
  split
  · refine .bind (balances_settleInFlight balance handle.path name) fun _ =>
      .bind (balances_ask handle name) fun settled => ?_
    cases settled with
    | found entry => exact .pure entry
    | unsettled | missing => exact .fail ..
  · cases answer with
    | found entry => exact .pure entry
    | unsettled | missing => exact .fail ..

theorem balances_localNames (balance : calls.Balance) (site : Site) (name : String)
    (location : Location) : Balances (localNames calls site name location) := by
  refine .bind (balance.resolveOwner site name) fun _ => .bind (.stateAt site) fun state => ?_
  split
  · split
    · exact .fail ..
    · exact .pure _
  · exact .pure _
  · split
    · exact .fail ..
    · split <;> exact .fail ..

theorem balances_referenceNames (balance : calls.Balance) (site : Site) (owner : String)
    (location : Location) (reference : Reference) :
    Balances (referenceNames calls site owner location reference) := by
  unfold referenceNames
  split
  · exact balances_localNames balance ..
  · exact .pure _
  · refine .bind (balance.load ..) fun handle => .bind (balances_lookUp balance ..) fun entry => ?_
    split
    · exact .fail ..
    · exact .pure _

theorem balances_compose (balance : calls.Balance) (site : Site) (owner : String)
    (composition : Composition) : Balances (compose calls site owner composition) :=
  .bind (.mapM (balances_referenceNames balance site owner _) _) fun _ => .update _ _

theorem balances_resolveOwner (balance : calls.Balance) (site : Site) (owner : String) :
    Balances (resolveOwner calls site owner) := by
  refine .bind (.stateAt site) fun state => ?_
  split
  · exact .pure ()
  · exact .bind (.whileResolving (.forM (balances_compose balance site owner) _)) fun _ =>
      .update _ _

theorem balances_resolveImport (balance : calls.Balance) (site : Site)
    (reference : ImportReference) : Balances (resolveImport calls site reference) :=
  .bind (balance.load ..) fun _ => .bind (balances_lookUp balance ..) fun _ => .update _ _

theorem balances_resolve (balance : calls.Balance) (site : Site) :
    Balances (resolve calls site) :=
  .bind (.stateAt site) fun _ => .bind (.forM (balances_resolveImport balance site) _) fun _ =>
    .bind (.update _ _) fun _ => .bind (.stateAt site) fun _ => .forM (balance.resolveOwner site) _

end Resolution

namespace Compilation

variable {workspace : Workspace}

theorem balances_start (path : Path) : Balances (start path) where
  balanced graph := (Graph.Balanced.files graph _ graph.finished).trans (.quiet _ fun _ => rfl)

theorem balances_collect (context : FileContext) (site : Site) :
    Balances (collect context site) := by
  refine .bind (.update _ _) fun _ => .bind (.forM (fun _ => .note fun _ => rfl) _) fun _ => ?_
  split
  · exact .pure _
  · exact .throw _

theorem balances_finish (options : Options) (path : Path) (sheet : Stylesheet) :
    Balances (finish options path sheet) := by
  refine .bind (.bind (.stateAt _) fun _ => .pure _) fun substituted =>
    .bind (.stateAt _) fun state => .bind ?_ fun _ => .pure _
  exact ⟨fun graph => (Graph.Balanced.files graph _ _).trans (.quiet _ fun _ => rfl)⟩

theorem balances_compile {resolve : Site → Compiling Unit}
    (balances : ∀ site, Balances (resolve site)) (path : Path) (source : String) :
    Balances (compile workspace resolve path source) :=
  .bind (balances_start path) fun _ => .bind (balances_collect _ _) fun _ =>
    .bind (balances _) fun _ => balances_finish ..

theorem balances_load {calls : Calls} (balance : calls.Balance) (specifier : String)
    (importer : Path) (location : Location) :
    Balances (load workspace calls specifier importer location) := by
  unfold load
  dsimp only
  split
  · exact .fail ..
  · refine .bind .get fun graph => ?_
    split
    · exact .bind (.note fun _ => rfl) fun _ => .bind (.note fun _ => rfl) fun _ => .pure _
    · refine .bind (.note fun _ => rfl) fun _ => ?_
      split
      · exact .fail ..
      · exact .bind (.note fun _ => rfl) fun _ =>
          .bind (balances_compile (Resolution.balances_resolve balance) ..) fun _ =>
            .bind (.note fun _ => rfl) fun _ => .pure _

/-- However deep requests may nest, they leave the names that they enter. -/
theorem balance_calls (workspace : Workspace) (depth : Nat) : (calls workspace depth).Balance := by
  induction depth with
  | zero => exact ⟨fun _ _ _ => .throw _, fun _ _ => .throw _⟩
  | succ depth induction =>
    exact ⟨balances_load induction, Resolution.balances_resolveOwner induction⟩

theorem balances_allCalls {next : Calls → Compiling α}
    (rest : ∀ depth, Balances (next (calls workspace depth))) :
    Balances (allCalls workspace >>= next) := by
  constructor
  intro graph
  have read : outcome (allCalls workspace) graph =
      (.ok (calls workspace (depthLimit workspace graph)), graph) := by
    rw [allCalls, outcome_bind, outcome_get]
    rfl
  rw [outcome_bind, read]
  exact (rest _).balanced graph

theorem balances_resolve (site : Site) : Balances (resolve workspace site) :=
  balances_allCalls fun depth => Resolution.balances_resolve (balance_calls workspace depth) site

end Compilation

namespace Compiling

/-- An action leaves the same names being resolved as before. Whichever single changes it is made
of, at every moment the names from before are being resolved, and no name twice. -/
structure Restores (action : Compiling α) (graph : Graph) : Prop where
  resolving : (outcome action graph).2.resolving = graph.resolving
  passes : ∃ moments, graph.Passes moments (outcome action graph).2
  outer : ∀ moments, graph.Passes moments (outcome action graph).2 →
    ∀ moment ∈ moments, graph.resolving <+: moment.resolving
  distinct : ∀ moments, graph.Passes moments (outcome action graph).2 →
    ∀ moment ∈ moments, moment.resolving.Nodup

theorem Balances.restores {action : Compiling α} {graph : Graph} (balances : Balances action)
    (distinct : graph.resolving.Nodup) : Restores action graph := by
  have balanced := balances.balanced graph
  obtain ⟨moments, passes, _⟩ := balanced.exists_passes
  exact ⟨balanced.resolving, ⟨moments, passes⟩,
    fun _ way _ member => (balanced.within way member).outer,
    fun _ way _ member => (balanced.within way member).distinct distinct⟩

/-- Requests restore the names that are being resolved, whatever they come to and however deep they
may nest. -/
theorem requests_restore_names (workspace : Workspace) {graph : Graph}
    (distinct : graph.resolving.Nodup) :
    (∀ specifier importer location,
      Restores (Graph.load workspace specifier importer location) graph) ∧
    (∀ path source, Restores (Graph.compile workspace path source) graph) ∧
    (∀ site, Restores (Compilation.resolve workspace site) graph) ∧
    ∀ depth, let calls := Compilation.calls workspace depth
      (∀ specifier importer location,
        Restores (Compilation.load workspace calls specifier importer location) graph) ∧
      (∀ path source,
        Restores (Compilation.compile workspace (Resolution.resolve calls) path source) graph) ∧
      (∀ site, Restores (Resolution.resolve calls site) graph) ∧
      ∀ site owner, Restores (Resolution.resolveOwner calls site owner) graph := by
  have balance := Compilation.balance_calls workspace
  have resolve (site : Site) : Balances (Compilation.resolve workspace site) :=
    Compilation.balances_resolve site
  refine ⟨fun specifier importer location => ?_, fun path source => ?_, fun site => ?_,
    fun depth => ⟨fun specifier importer location => ?_, fun path source => ?_, fun site => ?_,
      fun site owner => ?_⟩⟩
  · refine Balances.restores (Compilation.balances_allCalls fun depth => ?_) distinct
    exact (balance depth).load specifier importer location
  · exact (Compilation.balances_compile resolve path source).restores distinct
  · exact (resolve site).restores distinct
  · exact (Compilation.balances_load (balance depth) ..).restores distinct
  · have resolveNested := Resolution.balances_resolve (balance depth)
    exact (Compilation.balances_compile resolveNested path source).restores distinct
  · exact (Resolution.balances_resolve (balance depth) site).restores distinct
  · exact (Resolution.balances_resolveOwner (balance depth) site owner).restores distinct

/-- A circle fails two names deep, while another name is being resolved. -/
theorem circle_restores_names :
    let workspace : Workspace := ⟨.standard, .ofList .top [], .nearest⟩
    let card := [(Path.parse "/card.css", "card")]
    let request := Graph.compile workspace (.parse "/circle.css")
      ".a\x7bcomposes:b\x7d.b\x7bcomposes:a\x7d"
    (outcome request { Graph.empty with resolving := card }).2.events =
        [.started (.parse "/circle.css"), .entered (.parse "/circle.css") "a",
          .entered (.parse "/circle.css") "b", .left, .left] ∧
      card.Nodup ∧ Restores request { Graph.empty with resolving := card } :=
  ⟨by decide +kernel, by decide +kernel,
    (requests_restore_names _ (by decide +kernel)).2.1 _ _⟩

end Compiling

end ScopedStyles
