import ScopedStyles.Proofs.Foundation.Pairing
import ScopedStyles.Proofs.Module.Records
import ScopedStyles.Proofs.Sheet.Likeness

/-!
A file collected twice, side by side. The two contexts have the same paths and treat selectors
alike, but may make other names; one of them may check less, and the second one may export global
names that the first one does not. Then both walks declare the same records, but for these names,
and print sheets of the same shape, or fail alike, unless the first walk fails a check that the
second one does not make.
-/

namespace ScopedStyles

open Text

/-! ## Modes that treat selectors alike -/

/-- Names are local in both modes or in none, and so are blocks. -/
structure Mode.Alike (mode other : Mode) : Prop where
  isLocal : other.isLocal = mode.isLocal
  isBlock : other.isBlock = mode.isBlock

theorem Mode.Alike.refl (mode : Mode) : mode.Alike mode := ⟨rfl, rfl⟩

theorem Mode.Alike.globalBlock_iff {mode other : Mode} (alike : mode.Alike other) :
    other = .globalBlock ↔ mode = .globalBlock := by
  obtain ⟨isLocal, isBlock⟩ := alike
  cases mode <;> cases other <;> simp_all [Mode.isLocal, Mode.isBlock]

namespace Selector

variable {mode other : Mode}

theorem nameSegment_congr (same : other.isLocal = mode.isLocal) (sigil : Sigil)
    (spelling : List Char) :
    nameSegment other sigil spelling = nameSegment mode sigil spelling := by
  rw [nameSegment, nameSegment, same]

mutual
/-- Of the mode, only whether it is local decides, and it stays alike behind a piece. -/
theorem annotatePiece_congr (mode other : Mode) (same : other.isLocal = mode.isLocal)
    (inWrapper : Bool) (text : List Char) :
    (piece : Piece) → Option.Rel
      (fun marked otherMarked => otherMarked.1 = marked.1 ∧ otherMarked.2.1 = marked.2.1 ∧
        otherMarked.2.2.isLocal = marked.2.2.isLocal)
      (annotatePiece mode inWrapper text piece) (annotatePiece other inWrapper text piece)
  | .verbatim copied => .some ⟨rfl, rfl, same⟩
  | .name sigil spelling => by
    unfold annotatePiece
    exact .some ⟨by rw [nameSegment_congr same], rfl, same⟩
  | .switch isGlobal => by
    unfold annotatePiece
    split
    · exact .none
    · exact .some ⟨rfl, rfl, rfl⟩
  | .wrapper isGlobal arguments => by
    unfold annotatePiece
    split
    · exact .none
    · cases annotateList (.switched isGlobal) true arguments with
      | none => exact .none
      | some inside => exact .some ⟨rfl, rfl, same⟩
  | .functional name arguments => by
    unfold annotatePiece
    rw [annotateList_congr mode other same inWrapper arguments]
    cases annotateList mode inWrapper arguments with
    | none => exact .none
    | some inside => exact .some ⟨rfl, rfl, same⟩

theorem annotatePieces_congr (mode other : Mode) (same : other.isLocal = mode.isLocal)
    (inWrapper : Bool) (text : List Char) :
    (pieces : List Piece) →
      annotatePieces other inWrapper text pieces = annotatePieces mode inWrapper text pieces
  | [] => rfl
  | piece :: rest => by
    have first := annotatePiece_congr mode other same inWrapper text piece
    unfold annotatePieces
    generalize annotatePiece mode inWrapper text piece = marked at first
    generalize annotatePiece other inWrapper text piece = otherMarked at first
    cases first with
    | none => rfl
    | @some marked otherMarked alike =>
      obtain ⟨segments, text, later⟩ := marked
      obtain ⟨_, _, otherLater⟩ := otherMarked
      obtain ⟨rfl, rfl, sameLater⟩ := alike
      dsimp only
      rw [annotatePieces_congr later otherLater sameLater inWrapper _ rest]

theorem annotateList_congr (mode other : Mode) (same : other.isLocal = mode.isLocal)
    (inWrapper : Bool) :
    (arguments : List (List Piece)) →
      annotateList other inWrapper arguments = annotateList mode inWrapper arguments
  | [] => rfl
  | first :: rest => by
    unfold annotateList
    rw [annotatePieces_congr mode other same inWrapper [] first,
      annotateRest_congr mode other same inWrapper rest]

theorem annotateRest_congr (mode other : Mode) (same : other.isLocal = mode.isLocal)
    (inWrapper : Bool) :
    (arguments : List (List Piece)) →
      annotateRest other inWrapper arguments = annotateRest mode inWrapper arguments
  | [] => rfl
  | first :: rest => by
    unfold annotateRest
    rw [annotatePieces_congr mode other same inWrapper [] first,
      annotateRest_congr mode other same inWrapper rest]
end

end Selector

theorem annotateSelectors_congr {mode other : Mode} (alike : mode.Alike other)
    (selectors : String) :
    annotateSelectors selectors other = annotateSelectors selectors mode := by
  unfold annotateSelectors
  rw [alike.isBlock]
  have same :
      (fun item => Selector.annotatePieces other mode.isBlock [] (Selector.Piece.read item)) =
        fun item => Selector.annotatePieces mode mode.isBlock [] (Selector.Piece.read item) :=
    funext fun item => Selector.annotatePieces_congr mode other alike.isLocal _ _ _
  rw [same]

/-! ## Frames and contexts -/

structure Frame.Alike (frame other : Frame) : Prop where
  mode : frame.mode.Alike other.mode
  inPureRule : other.inPureRule = frame.inPureRule
  inKeyframes : other.inKeyframes = frame.inKeyframes

theorem Frame.Alike.refl (frame : Frame) : frame.Alike frame := ⟨.refl _, rfl, rfl⟩

theorem Frame.Alike.ruleKind {frame other : Frame} (alike : frame.Alike other)
    (selector : String) :
    Collect.ruleKind other.mode other.inKeyframes selector =
      Collect.ruleKind frame.mode frame.inKeyframes selector := by
  unfold Collect.ruleKind
  rw [alike.inKeyframes, annotateSelectors_congr alike.mode]

theorem Frame.Alike.inRule {frame other : Frame} (alike : frame.Alike other)
    (selectors : List AnnotatedSelector) :
    (frame.inRule selectors).Alike (other.inRule selectors) :=
  ⟨alike.mode, by rw [Frame.inRule, alike.inPureRule]; rfl, rfl⟩

/-- Texts in which names are made by one of two functions. Values are equal. -/
def TextLikeness.renamed (rename other : String → String) : TextLikeness where
  selectors text otherText := text = otherText ∨ ∃ selectors,
    text = renderSelectors rename selectors ∧ otherText = renderSelectors other selectors
  params name text otherText := text = otherText ∨ Keyframes.isKeyframes name ∧ ∃ keyframes,
    text = rename keyframes ∧ otherText = other keyframes
  values _ := Eq

theorem TextLikeness.renamed_refl (rename other : String → String) (nodes : List Node) :
    Node.AlikeAll (.renamed rename other) nodes nodes :=
  .refl (fun _ => Or.inl rfl) (fun _ _ => Or.inl rfl) (fun _ _ => rfl) nodes

theorem TextLikeness.renamed_self {rename : String → String} {nodes others : List Node}
    (alike : Node.AlikeAll (.renamed rename rename) nodes others) : others = nodes := by
  have same : Node.AlikeAll .equality nodes others := by
    refine alike.mono ?_ ?_ fun _ _ _ => id
    · rintro text other (same | ⟨selectors, rfl, rfl⟩)
      · exact same
      · rfl
    · rintro name text other (same | ⟨_, keyframes, rfl, rfl⟩)
      · exact same
      · rfl
  exact same.eq

/-- Two contexts in which a file is collected alike: replaying the same records keeps collections
alike, and so does a global name that only the second context exports; the second context makes no
check that the first does not make. -/
structure FileContext.Counterparts (pairing : Pairing Failure Collection)
    (context other : FileContext) : Prop where
  path : other.path = context.path
  exportGlobals : context.exportGlobals → other.exportGlobals
  mode : context.mode.Alike other.mode
  checks : other.mode = .purely → context.mode = .purely
  excuses : context.mode = .purely → other.mode ≠ .purely →
    ∀ location selector, pairing.excused ⟨context.path, location, .impure selector⟩
  literals : ∀ {collection otherCollection}, pairing.alike collection otherCollection →
    otherCollection.state.literals = collection.state.literals
  replays : ∀ {collection otherCollection}, pairing.alike collection otherCollection →
    ∀ records, pairing.alike (collection.replay context records)
      (otherCollection.replay other records)
  passes : context.exportGlobals = false → other.exportGlobals →
    ∀ {collection otherCollection}, pairing.alike collection otherCollection →
      ∀ name, pairing.alike collection (otherCollection.replay other [.passed name])

/-- The same records, but for global names that only the second list may export. -/
inductive Record.Passing (extra : Prop) : List Record → List Record → Prop where
  | nil : Passing extra [] []
  | same (record : Record) {records others : List Record} (rest : Passing extra records others) :
      Passing extra (record :: records) (record :: others)
  | passed (name : String) (allowed : extra) {records others : List Record}
      (rest : Passing extra records others) : Passing extra records (.passed name :: others)

theorem Record.Passing.refl {extra : Prop} : (records : List Record) →
    Passing extra records records
  | [] => .nil
  | record :: rest => .same record (refl rest)

/-- Whether the second context exports global names that the first one does not. -/
def FileContext.Widens (context other : FileContext) : Prop :=
  context.exportGlobals = false ∧ other.exportGlobals

namespace FileContext.Counterparts

variable {pairing : Pairing Failure Collection} {context other : FileContext}
  {collection otherCollection : Collection}

theorem replaysPassing (parts : context.Counterparts pairing other) {records others : List Record}
    (passing : Record.Passing (context.Widens other) records others)
    (alike : pairing.alike collection otherCollection) :
    pairing.alike (collection.replay context records) (otherCollection.replay other others) := by
  induction passing generalizing collection otherCollection with
  | nil => exact parts.replays alike []
  | @same record records others _ induction =>
    have first := parts.replays alike [record]
    rw [← List.singleton_append, ← List.singleton_append (l := others), Collection.replay_append,
      Collection.replay_append]
    exact induction first
  | @passed name allowed records others _ induction =>
    have first := parts.passes allowed.1 allowed.2 alike name
    rw [← List.singleton_append, Collection.replay_append]
    exact induction first

/-- Global names are exported by both contexts, by none, or by the second one alone. -/
theorem passing_of_global (parts : context.Counterparts pairing other) (name : String)
    {records others : List Record} (rest : Record.Passing (context.Widens other) records others) :
    Record.Passing (context.Widens other)
      ((if context.exportGlobals then [.passed name] else []) ++ records)
      ((if other.exportGlobals then [.passed name] else []) ++ others) := by
  by_cases exported : context.exportGlobals
  · rw [if_pos exported, if_pos (parts.exportGlobals exported)]
    exact .same _ rest
  · rw [if_neg exported]
    split
    · rename_i widened
      exact .passed name ⟨by simpa using exported, widened⟩ rest
    · exact rest

end FileContext.Counterparts

/-- A collection whose literals have been settled as far as they need no import. -/
def Collection.settled (collection : Collection) : Collection :=
  { collection with
    state := collection.state.settleLiterals
      (collection.state.imports.map ImportReference.localName) }

namespace Collect

variable {pairing : Pairing Failure Collection} {context other : FileContext}
  {collection otherCollection : Collection} {frame otherFrame : Frame}

/-- Actions that end well and make the same records, but for global names. -/
theorem follows_of_gathers (parts : context.Counterparts pairing other)
    (alike : pairing.alike collection otherCollection) {values : α → β → Prop} {value : α}
    {otherValue : β} (holds : values value otherValue) {records others : List Record}
    (passing : Record.Passing (context.Widens other) records others)
    {action : Collecting α} {partner : Collecting β}
    (gathers : Gathers context action value records)
    (otherGathers : Gathers other partner otherValue others)
    (ends : (outcome action collection).1.isOk)
    (otherEnds : (outcome partner otherCollection).1.isOk) :
    pairing.Follows values collection otherCollection action partner := by
  have comes := gathers.comes collection
  have otherComes := otherGathers.comes otherCollection
  change pairing.Ends values (outcome action collection) (outcome partner otherCollection)
  generalize outcome action collection = ending at *
  generalize outcome partner otherCollection = otherEnding at *
  obtain ⟨_ | result, after⟩ := ending
  · cases ends
  obtain ⟨_ | otherResult, otherAfter⟩ := otherEnding
  · cases otherEnds
  obtain ⟨rfl, rfl⟩ := comes
  obtain ⟨rfl, rfl⟩ := otherComes
  exact .value holds (parts.replaysPassing passing alike)

/-- The path that a value holds, if it is among the literals. -/
def pathIn (context : FileContext) (location : Location) (name : String)
    (literals : OrderedMap String Literal) : Except Failure String :=
  let missing : Failure := ⟨context.path, location,
    .unresolved name "no value with that name holds a path"⟩
  match literals.get? name with
  | some literal => if literal.isValue then .ok (unquote literal.raw) else .error missing
  | none => .error missing

theorem outcome_valuePath_eq (context : FileContext) (location : Location) (name : String)
    (collection : Collection) :
    outcome (valuePath context location name) collection =
      (pathIn context location name collection.state.literals, collection) := by
  unfold valuePath pathIn
  rw [outcome_bind, outcome_get]
  dsimp only
  cases collection.state.literals.get? name with
  | none => rfl
  | some literal =>
    dsimp only
    split
    · rfl
    · rfl

/-- What decides whether a selector list is checked, besides the mode of the file. -/
theorem isChecked_iff (context : FileContext) {frame otherFrame : Frame}
    (frames : frame.Alike otherFrame) :
    isChecked context otherFrame ↔
      context.mode = .purely ∧ frame.mode ≠ .globalBlock ∧ frame.inPureRule = false := by
  simp [isChecked, frames.mode.globalBlock_iff, frames.inPureRule, and_assoc]

theorem isOk_scopeKeyframes (context : FileContext) (mode : Mode) (params : String)
    (collection : Collection) :
    (outcome (scopeKeyframes context mode params) collection).1.isOk := by
  unfold scopeKeyframes
  dsimp only
  split
  · rfl
  · split
    · rfl
    · rfl

section

variable (parts : context.Counterparts pairing other)

include parts

theorem follows_fail (alike : pairing.alike collection otherCollection) {values : α → β → Prop}
    (location : Location) (cause : Cause) :
    pairing.Follows values collection otherCollection (fail context location cause)
      (fail other location cause) := by
  unfold fail
  rw [parts.path]
  exact .throw alike

theorem follows_recordCompositions (alike : pairing.alike collection otherCollection)
    (selector : String) (selectors : List AnnotatedSelector) (body : List Node) :
    pairing.Follows Eq collection otherCollection
      (recordCompositions context selector selectors body)
      (recordCompositions other selector selectors body) := by
  apply Pairing.Follows.forM alike
  intro content _ current otherCurrent alike
  cases selectors.mapM AnnotatedSelector.singleLocalClass? with
  | none => exact follows_fail parts alike _ _
  | some owners =>
    have gathers (context : FileContext) : Gathers context
        (update fun state => owners.foldl (fun state owner =>
          state.recordComposition (.ofDeclaration content) owner) state) ()
        (owners.map (Record.composition · (.ofDeclaration content))) := by
      refine .update (fun state => ?_) (by simp [Record.malformed?])
      rw [List.foldl_map]
      rfl
    exact follows_of_gathers parts alike rfl (.refl _) (gathers context) (gathers other) rfl rfl

theorem follows_recordValue (alike : pairing.alike collection otherCollection) (params : String)
    (location : Location) :
    pairing.Follows Eq collection otherCollection (recordValue context params location)
      (recordValue other params location) := by
  have gathers := gathers_recordValue context params location
  have otherGathers := gathers_recordValue other params location
  unfold recordValue at gathers otherGathers ⊢
  generalize valueRecords params location = records at gathers otherGathers
  generalize ValueRule.parse params = rule at gathers otherGathers ⊢
  -- Only the path of an import can be read from a value, and only that reading can fail.
  rcases rule with _ | ⟨name, value⟩ | ⟨names, _ | name⟩
  · exact follows_of_gathers parts alike rfl (.refl _) gathers otherGathers rfl rfl
  · exact follows_of_gathers parts alike rfl (.refl _) gathers otherGathers rfl rfl
  · exact follows_of_gathers parts alike rfl (.refl _) gathers otherGathers rfl rfl
  · have reads := outcome_valuePath_eq context location name collection
    have otherReads := outcome_valuePath_eq other location name otherCollection
    have samePath : pathIn other = pathIn context := by
      unfold pathIn
      rw [parts.path]
    rw [samePath, parts.literals alike] at otherReads
    generalize pathIn context location name collection.state.literals = reading
      at reads otherReads
    cases reading with
    | error failure =>
      change pairing.Ends Eq (outcome (valuePath context location name >>= _) collection)
        (outcome (valuePath other location name >>= _) otherCollection)
      rw [outcome_bind, outcome_bind, reads, otherReads]
      exact .reason (pairing.ended_of_alike alike)
    | ok specifier =>
      refine follows_of_gathers parts alike rfl (.refl _) gathers otherGathers ?_ ?_
      · change (outcome (valuePath context location name >>= _) collection).1.isOk
        rw [outcome_bind, reads]
        rfl
      · change (outcome (valuePath other location name >>= _) otherCollection).1.isOk
        rw [outcome_bind, otherReads]
        rfl

theorem passing_nameRecords (selectors : List AnnotatedSelector) :
    Record.Passing (context.Widens other) (nameRecords context selectors)
      (nameRecords other selectors) := by
  unfold nameRecords
  induction selectors.flatMap AnnotatedSelector.segments with
  | nil => exact .nil
  | cons segment segments induction =>
    rcases segment with _ | ⟨sigil, name, spelling, _ | _⟩
    · exact induction
    · have first (context : FileContext) :
          (Selector.Segment.name sigil name spelling false :: segments).filterMap
              (segmentRecord? context) =
            (if context.exportGlobals then [.passed name] else []) ++
              segments.filterMap (segmentRecord? context) := by
        cases exported : context.exportGlobals <;> simp [segmentRecord?, exported]
      rw [first, first]
      exact parts.passing_of_global name induction
    · exact .same _ induction

theorem passing_headerRecords {mode otherMode : Mode} (modes : mode.Alike otherMode)
    (params : String) :
    Record.Passing (context.Widens other) (headerRecords context mode params)
      (headerRecords other otherMode params) := by
  unfold headerRecords
  rw [modes.isLocal]
  dsimp only
  split
  · exact .refl _
  · -- A quoted name is never exported.
    have passing := parts.passing_of_global (Keyframes.readHeader params mode.isLocal).name .nil
    cases ((Keyframes.readHeader params mode.isLocal).name.toList.head?.map isQuote).getD false with
    | true =>
      simp only [Bool.not_true, Bool.and_false, Bool.false_eq_true, if_false]
      exact .nil
    | false => simpa using passing

/-- A check that the second walk makes, the first one makes as well; where the first one makes it
alone, a failure is excused. -/
theorem follows_scopeRule (alike : pairing.alike collection otherCollection)
    (frames : frame.Alike otherFrame) (selector : String) (body : List Node) (location : Location) :
    pairing.Follows Eq collection otherCollection (scopeRule context frame selector body location)
      (scopeRule other otherFrame selector body location) := by
  unfold scopeRule
  rw [annotateSelectors_congr frames.mode]
  cases annotateSelectors selector frame.mode with
  | error nested => exact follows_fail parts alike _ _
  | ok selectors =>
    have named : pairing.Follows Eq collection otherCollection
        (do update (declareNames context selectors)
            recordCompositions context selector selectors body
            pure selectors)
        (do update (declareNames other selectors)
            recordCompositions other selector selectors body
            pure selectors) := by
      apply Pairing.Follows.bind (follows_of_gathers parts alike rfl
        (passing_nameRecords parts selectors) (gathers_declareNames context selectors)
        (gathers_declareNames other selectors) rfl rfl)
      intro _ _ declared otherDeclared _ alikeDeclared
      apply Pairing.Follows.bind (follows_recordCompositions parts alikeDeclared _ selectors body)
      intro _ _ after otherAfter _ alikeAfter
      exact .pure alikeAfter rfl
    have checks := isChecked_iff context (Frame.Alike.refl frame)
    have otherChecks := isChecked_iff other frames
    dsimp only
    -- The first walk makes every check of the second one, so the only check it makes alone is
    -- the one that is excused.
    by_cases impure : (isChecked context frame && !selectors.all AnnotatedSelector.hasLocal) = true
    · rw [if_pos impure]
      obtain ⟨isChecked, noLocal⟩ := Bool.and_eq_true_iff.mp impure
      by_cases sameCheck : other.mode = .purely
      · rw [if_pos (by simp [otherChecks.mpr ⟨sameCheck, (checks.mp isChecked).2⟩, noLocal])]
        exact follows_fail parts alike _ _
      · exact .excused (parts.excuses (checks.mp isChecked).1 sameCheck location selector)
    · have passes :
          ¬ (isChecked other otherFrame && !selectors.all AnnotatedSelector.hasLocal) = true := by
        intro fails
        obtain ⟨isChecked, noLocal⟩ := Bool.and_eq_true_iff.mp fails
        have sameCheck := parts.checks (otherChecks.mp isChecked).1
        exact impure (by simp [checks.mpr ⟨sameCheck, (otherChecks.mp isChecked).2⟩, noLocal])
      rw [if_neg impure, if_neg passes]
      exact named

theorem follows_scopeParams (alike : pairing.alike collection otherCollection)
    (frames : frame.Alike otherFrame) (name params : String) :
    pairing.Follows
      ((TextLikeness.renamed context.scopedName other.scopedName).params name)
      collection otherCollection (scopeParams context frame name params)
      (scopeParams other otherFrame name params) := by
  unfold scopeParams
  by_cases isKeyframes : Keyframes.isKeyframes name
  · rw [if_pos isKeyframes, if_pos isKeyframes]
    have gathers := gathers_scopeKeyframes context frame.mode params
    have otherGathers := gathers_scopeKeyframes other otherFrame.mode params
    refine follows_of_gathers parts alike ?_ (passing_headerRecords parts frames.mode params)
      gathers otherGathers ?_ ?_
    · unfold printedHeader
      rw [frames.mode.isLocal]
      dsimp only
      split
      · exact .inr ⟨isKeyframes, _, rfl, rfl⟩
      · exact .inl rfl
    · exact isOk_scopeKeyframes ..
    · exact isOk_scopeKeyframes ..
  · rw [if_neg isKeyframes, if_neg isKeyframes]
    exact .pure alike (.inl rfl)

end

/-! ## The walk -/

/-- Two walks over the same body, from whatever collections are alike. -/
def FollowsInside (pairing : Pairing Failure Collection) (context other : FileContext)
    (inRule : Bool) (body : List Node) : Prop :=
  ∀ {frame otherFrame : Frame}, frame.Alike otherFrame →
    ∀ collection otherCollection, pairing.alike collection otherCollection →
      pairing.Follows (Node.AlikeAll (.renamed context.scopedName other.scopedName))
        collection otherCollection (nodes context frame inRule body)
        (nodes other otherFrame inRule body)

theorem follows_taken {texts : TextLikeness} {values : α → β → Prop} {action : Collecting α}
    {partner : Collecting β}
    (follows : pairing.Follows values collection otherCollection action partner) :
    pairing.Follows (Node.AlikeAll texts) collection otherCollection
      (action >>= fun _ => pure []) (partner >>= fun _ => pure []) := by
  apply Pairing.Follows.bind follows
  intro _ _ after otherAfter _ alikeAfter
  exact .pure alikeAfter .nil

section

variable (parts : context.Counterparts pairing other)
  (alike : pairing.alike collection otherCollection) (frames : frame.Alike otherFrame)

include parts alike frames

theorem follows_ordinaryRule (selector : String) (body : List Node) (location : Location)
    (inside : FollowsInside pairing context other true body) :
    pairing.Follows (Node.AlikeAll (.renamed context.scopedName other.scopedName))
      collection otherCollection (ordinaryRule context frame selector body location)
      (ordinaryRule other otherFrame selector body location) := by
  apply Pairing.Follows.bind (follows_scopeRule parts alike frames selector body location)
  rintro selectors _ headed otherHeaded rfl alikeHeaded
  apply Pairing.Follows.bind (inside (frames.inRule selectors) _ _ alikeHeaded)
  intro kept otherKept after otherAfter alikeKept alikeAfter
  exact .pure alikeAfter (.rule (.inr ⟨selectors, rfl, rfl⟩) alikeKept .nil)

theorem follows_rule (inRule : Bool) (selector : String) (body : List Node) (location : Location)
    (inside : ∀ inRule, FollowsInside pairing context other inRule body) :
    pairing.Follows (Node.AlikeAll (.renamed context.scopedName other.scopedName))
      collection otherCollection (node context frame inRule (.rule selector body location))
      (node other otherFrame inRule (.rule selector body location)) := by
  rw [node_rule, node_rule, frames.ruleKind]
  cases ruleKind frame.mode frame.inKeyframes selector with
  | wrapper mode =>
    dsimp only
    rw [frames.mode.isBlock]
    split
    · exact follows_fail parts alike _ _
    · have framesInside : Frame.Alike { frame with mode } { otherFrame with mode } :=
        ⟨.refl mode, frames.inPureRule, frames.inKeyframes⟩
      exact inside false framesInside _ _ alike
  | imports specifier =>
    exact follows_taken (follows_of_gathers parts alike rfl (.refl _)
      (gathers_recordImports context specifier body)
      (gathers_recordImports other specifier body) rfl rfl)
  | exports =>
    exact follows_taken (follows_of_gathers parts alike rfl (.refl _)
      (gathers_recordExports context body) (gathers_recordExports other body) rfl rfl)
  | step => exact .pure alike (TextLikeness.renamed_refl _ _ _)
  | refused nested => exact follows_fail parts alike _ _
  | ordinary _ =>
    exact follows_ordinaryRule parts alike frames selector body location (inside true)

theorem follows_block (inRule : Bool) (name params : String) (body : List Node)
    (location : Location) (inside : FollowsInside pairing context other false body) :
    pairing.Follows (Node.AlikeAll (.renamed context.scopedName other.scopedName))
      collection otherCollection (node context frame inRule (.block name params body location))
      (node other otherFrame inRule (.block name params body location)) := by
  unfold node
  split
  · exact follows_taken (follows_recordValue parts alike params location)
  · apply Pairing.Follows.bind (follows_scopeParams parts alike frames name params)
    intro printed otherPrinted headed otherHeaded alikePrinted alikeHeaded
    have framesInside : Frame.Alike
        { frame with inKeyframes := frame.inKeyframes || Keyframes.isKeyframes name }
        { otherFrame with inKeyframes := otherFrame.inKeyframes || Keyframes.isKeyframes name } :=
      ⟨frames.mode, frames.inPureRule, by rw [frames.inKeyframes]⟩
    apply Pairing.Follows.bind (inside framesInside _ _ alikeHeaded)
    intro kept otherKept after otherAfter alikeKept alikeAfter
    exact .pure alikeAfter (.block alikePrinted alikeKept .nil)

theorem follows_statement (inRule : Bool) (name params : String) (location : Location) :
    pairing.Follows (Node.AlikeAll (.renamed context.scopedName other.scopedName))
      collection otherCollection (node context frame inRule (.statement name params location))
      (node other otherFrame inRule (.statement name params location)) := by
  unfold node
  split
  · exact follows_taken (follows_recordValue parts alike params location)
  · apply Pairing.Follows.bind (follows_scopeParams parts alike frames name params)
    intro printed otherPrinted headed otherHeaded alikePrinted alikeHeaded
    exact .pure alikeHeaded (.statement alikePrinted .nil)

end

mutual
theorem follows_node (parts : context.Counterparts pairing other) {frame otherFrame : Frame}
    (frames : frame.Alike otherFrame) (inRule : Bool) :
    (item : Node) → ∀ collection otherCollection, pairing.alike collection otherCollection →
      pairing.Follows (Node.AlikeAll (.renamed context.scopedName other.scopedName))
        collection otherCollection (node context frame inRule item)
        (node other otherFrame inRule item)
  | .rule selector body location => fun _ _ alike =>
    follows_rule parts alike frames inRule selector body location fun inRule _ _ frames =>
      follows_nodes parts frames inRule body
  | .block name params body location => fun _ _ alike =>
    follows_block parts alike frames inRule name params body location fun frames =>
      follows_nodes parts frames false body
  | .statement name params location => fun _ _ alike =>
    follows_statement parts alike frames inRule name params location
  | .declaration content => fun _ _ alike => by
    unfold node
    exact .pure alike (TextLikeness.renamed_refl _ _ _)
  | .comment text location => fun _ _ alike => by
    unfold node
    exact .pure alike (.comment .nil)

/-- Two walks over the same nodes print nodes that are alike, or fail alike. -/
theorem follows_nodes (parts : context.Counterparts pairing other) {frame otherFrame : Frame}
    (frames : frame.Alike otherFrame) (inRule : Bool) :
    (items : List Node) → ∀ collection otherCollection,
      pairing.alike collection otherCollection →
      pairing.Follows (Node.AlikeAll (.renamed context.scopedName other.scopedName))
        collection otherCollection (nodes context frame inRule items)
        (nodes other otherFrame inRule items)
  | [] => by
    intro collection otherCollection alike
    unfold nodes
    exact .pure alike .nil
  | first :: rest => by
    intro collection otherCollection alike
    unfold nodes
    apply Pairing.Follows.bind (follows_node parts frames inRule first _ _ alike)
    intro kept otherKept middle otherMiddle alikeKept alikeMiddle
    apply Pairing.Follows.bind (follows_nodes parts frames inRule rest _ _ alikeMiddle)
    intro others otherOthers after otherAfter alikeOthers alikeAfter
    exact .pure alikeAfter (alikeKept.append alikeOthers)
end

/-- A sheet that is collected in both contexts is printed alike, or both fail alike; what is
collected is alike in the sense that settling leads to. -/
theorem ends_run (parts : context.Counterparts pairing other)
    (empty : pairing.alike .empty .empty) (settled : Pairing Failure Collection)
    (excused : ∀ failure, pairing.excused failure → settled.excused failure)
    (ended : ∀ collection otherCollection, pairing.ended collection otherCollection →
      settled.ended collection otherCollection)
    (sheet : Stylesheet)
    (settles : ∀ collection otherCollection, pairing.alike collection otherCollection →
      collection.state = declaredState context sheet →
      otherCollection.state = declaredState other sheet →
      settled.alike collection.settled otherCollection.settled) :
    settled.Ends (Node.AlikeAll (.renamed context.scopedName other.scopedName))
      (run context sheet) (run other sheet) := by
  have frames : Frame.Alike ⟨context.mode, false, false⟩ ⟨other.mode, false, false⟩ :=
    ⟨parts.mode, rfl, rfl⟩
  have gathered := (gathers_nodes context ⟨context.mode, false, false⟩ false sheet).comes .empty
  have otherGathered := (gathers_nodes other ⟨other.mode, false, false⟩ false sheet).comes .empty
  have follows := follows_nodes parts frames false sheet _ _ empty
  change pairing.Ends _ (outcome (nodes context _ false sheet) .empty)
    (outcome (nodes other _ false sheet) .empty) at follows
  change settled.Ends _ (outcome (_ >>= _) .empty) (outcome (_ >>= _) .empty)
  rw [outcome_bind, outcome_bind]
  generalize outcome (nodes context ⟨context.mode, false, false⟩ false sheet) .empty = ending
    at follows gathered ⊢
  generalize outcome (nodes other ⟨other.mode, false, false⟩ false sheet) .empty = otherEnding
    at follows otherGathered ⊢
  cases follows with
  | value alike collections =>
    refine .value alike (settles _ _ collections ?_ ?_)
    · rw [gathered.2]
      rfl
    · rw [otherGathered.2]
      rfl
  | reason collections => exact .reason (ended _ _ collections)
  | excused excuse => exact .excused (excused _ excuse)

end Collect

end ScopedStyles
