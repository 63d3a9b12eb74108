import Mathlib.Data.List.Pairwise
import ScopedStyles.Proofs.Module.Development
import ScopedStyles.Proofs.Module.Records

/-!
Files that introduce every name in one way only: as a class, an id or keyframes, which may be
repeated, or once as a value, an export or the alias of an import. In such a file a name that
stands for a class is never written to, and every other name stands for text.
-/

namespace ScopedStyles

namespace Record

/-- The name that a record introduces to its file. -/
def introduced? : Record → Option String
  | .declared name | .passed name | .keyframes name => some name
  | .imported reference => some reference.localName
  | .literal name _ => some name
  | .importedValue name _ _ => some name.localName
  | .composition .. | .malformed .. => none

/-- Whether a record introduces a class, an id or keyframes. -/
def isClass : Record → Bool
  | .declared _ | .passed _ | .keyframes _ => true
  | _ => false

/-- The class, id or keyframes of the file itself that a record scopes. -/
def scopes? : Record → Option String
  | .declared name | .keyframes name => some name
  | _ => none

/-- The name that a record makes stand for a text. -/
def writes? : Record → Option String
  | .literal name _ => some name
  | .importedValue name _ _ => some name.localName
  | _ => none

def alias? : Record → Option String
  | .imported reference => some reference.localName
  | .importedValue name _ _ => some name.localName
  | _ => none

/-- The composition that a record makes, with its owner. -/
def composition? : Record → Option (String × Composition)
  | .composition owner content => some (owner, content)
  | _ => none

theorem introduced?_of_writes? {record : Record} {name : String}
    (writes : record.writes? = some name) :
    record.introduced? = some name ∧ ¬ record.isClass := by
  cases record <;> simp_all [writes?, introduced?, isClass]

theorem introduced?_of_alias? {record : Record} {name : String}
    (aliased : record.alias? = some name) :
    record.introduced? = some name ∧ ¬ record.isClass := by
  cases record <;> simp_all [alias?, introduced?, isClass]

/-- Two records introduce different names, or the same name as a class, an id or keyframes. -/
def Agrees (first second : Record) : Prop :=
  first.introduced? ≠ none → first.introduced? = second.introduced? →
    first.isClass ∧ second.isClass

instance (first second : Record) : Decidable (Agrees first second) :=
  inferInstanceAs (Decidable (_ → _ → _))

/-- Every name is introduced in one way only. -/
def OneWay (records : List Record) : Prop :=
  records.Pairwise Agrees

instance (records : List Record) : Decidable (OneWay records) :=
  inferInstanceAs (Decidable (records.Pairwise Agrees))

instance : Std.Symm Agrees where
  symm _ _ agrees some same := (agrees (same ▸ some) same.symm).symm

theorem OneWay.dichotomy {records : List Record} (oneWay : OneWay records) (name : String) :
    (∀ record ∈ records, record.introduced? = some name → record.isClass) ∨
      ∀ record ∈ records, record.introduced? = some name → ¬ record.isClass := by
  by_cases mixed : ∃ first ∈ records, first.introduced? = some name ∧ ¬ first.isClass
  · rcases mixed with ⟨first, firstMember, introducesFirst, noClass⟩
    refine .inr ?_
    intro second secondMember introducesSecond isClass
    have different : first ≠ second := by
      rintro rfl
      exact noClass isClass
    have agrees := oneWay.forall firstMember secondMember different
    exact noClass (agrees (by simp [introducesFirst])
      (introducesFirst.trans introducesSecond.symm)).1
  · refine .inl ?_
    intro record member introduces
    by_contra noClass
    exact mixed ⟨record, member, introduces, noClass⟩

end Record

/-! ## Classes and texts -/

namespace TokenTable

theorem get?_declareLocal (table : TokenTable) (name other generated : String) :
    (table.declareLocal name generated).get? other =
      if other = name then
        some (match table.get? name with
          | some entry =>
            if entry.isLiteral then .plain .localName generated else entry.rename generated
          | none => .plain .localName generated)
      else table.get? other := by
  unfold declareLocal
  cases table.get? name with
  | none => exact get?_put table name other _
  | some entry =>
    dsimp only
    split <;> exact get?_put table name other _

theorem get?_declareGlobal (table : TokenTable) (name other : String) :
    (table.declareGlobal name).get? other =
      if other = name ∧ table.get? name = none then some (.plain .globalName name)
      else table.get? other := by
  have contained : table.contains name = (table.get? name).isSome := rfl
  unfold declareGlobal
  rw [contained]
  cases found : table.get? name with
  | some entry => simp
  | none =>
    rw [if_neg (by simp), get?_put]
    simp

end TokenTable

namespace ModuleState

/-- A name stands for a class, an id or keyframes, and nothing has been composed into it. -/
structure NamesClass (state : ModuleState) (name : String) : Prop extends
    Unwritten state name where
  noImport : ∀ reference ∈ state.imports, reference.localName ≠ name
  plain : ∀ entry, state.table.get? name = some entry →
    ∃ kind primary, kind ≠ .literal ∧ entry = .plain kind primary

variable {context : FileContext} {state : ModuleState} {name : String} {record : Record}

/-! ### Names that are scoped and never written to -/

theorem Unwritten.declare (unwritten : state.Unwritten name)
    (writesOther : record.writes? ≠ some name) :
    (record.declare context state).Unwritten name := by
  cases record with
  | literal other content =>
    have different : name ≠ other := fun equal => writesOther (congrArg some equal.symm)
    refine ⟨?_, unwritten.noAlias⟩
    intro known
    change (state.literals.insert other content).contains name at known
    rw [OrderedMap.contains_insert, decide_eq_false different, Bool.false_or] at known
    exact unwritten.noLiteral known
  | importedValue value source location =>
    refine ⟨unwritten.noLiteral, ?_⟩
    intro member
    rcases mem_addNew.mp member with equal | earlier
    · exact writesOther (congrArg some equal.symm)
    · exact unwritten.noAlias earlier
  | declared | passed | keyframes | imported | composition | malformed =>
    exact ⟨unwritten.noLiteral, unwritten.noAlias⟩

/-- A name that is scoped has its scoped name of its own, whatever it was before. -/
theorem hasOwn_declareLocal (state : ModuleState) (name generated : String) :
    (state.declareLocal name generated).HasOwn name generated .localName := by
  have found := (TokenTable.get?_declareLocal state.table name name generated).trans (if_pos rfl)
  refine ⟨_, found, ?_⟩
  cases state.table.get? name with
  | none => exact ⟨rfl, rfl⟩
  | some entry =>
    dsimp only
    split <;> exact ⟨rfl, rfl⟩

theorem hasOwn_declare (scopes : record.scopes? = some name) :
    (record.declare context state).HasOwn name (context.scopedName name) .localName := by
  cases record with
  | declared other | keyframes other =>
    cases scopes
    exact hasOwn_declareLocal state name (context.scopedName name)
  | passed | imported | literal | importedValue | composition | malformed => cases scopes

theorem HasOwn.declare (own : state.HasOwn name (context.scopedName name) .localName)
    (writesOther : record.writes? ≠ some name) :
    (record.declare context state).HasOwn name (context.scopedName name) .localName := by
  rcases own with ⟨entry, found, own⟩
  cases record with
  | declared other | keyframes other =>
    by_cases equal : other = name
    · subst equal
      exact hasOwn_declareLocal state other (context.scopedName other)
    · exact ⟨entry, (TokenTable.get?_declareLocal ..).trans
        ((if_neg fun same => equal same.symm).trans found), own⟩
  | passed other =>
    refine ⟨entry, (TokenTable.get?_declareGlobal ..).trans ((if_neg ?_).trans found), own⟩
    rintro ⟨rfl, absent⟩
    rw [found] at absent
    cases absent
  | literal other content =>
    refine ⟨entry, (TokenTable.get?_declareLiteral ..).trans ((if_neg ?_).trans found), own⟩
    exact fun equal => writesOther (congrArg some equal.symm)
  | importedValue value source location =>
    refine ⟨entry, (TokenTable.get?_declareLiteral ..).trans ((if_neg ?_).trans found), own⟩
    exact fun equal => writesOther (congrArg some equal.symm)
  | imported | composition | malformed => exact ⟨entry, found, own⟩

theorem HasOwn.orText {primary : String} (own : state.HasOwn name primary .localName) :
    state.HasOwnOrText name primary := by
  rcases own with ⟨entry, found, own⟩
  exact ⟨entry, found, .inl own⟩

theorem HasOwnOrText.declare (own : state.HasOwnOrText name (context.scopedName name)) :
    (record.declare context state).HasOwnOrText name (context.scopedName name) := by
  rcases own with ⟨entry, found, holds⟩
  cases record with
  | declared other | keyframes other =>
    by_cases equal : other = name
    · subst equal
      exact (hasOwn_declareLocal state other (context.scopedName other)).orText
    · exact ⟨entry, (TokenTable.get?_declareLocal ..).trans
        ((if_neg fun same => equal same.symm).trans found), holds⟩
  | passed other =>
    refine ⟨entry, (TokenTable.get?_declareGlobal ..).trans ((if_neg ?_).trans found), holds⟩
    rintro ⟨rfl, absent⟩
    rw [found] at absent
    cases absent
  | literal other content =>
    by_cases equal : name = other
    · exact ⟨_, (TokenTable.get?_declareLiteral ..).trans (if_pos equal), .inr rfl⟩
    · exact ⟨entry, (TokenTable.get?_declareLiteral ..).trans ((if_neg equal).trans found), holds⟩
  | importedValue value source location =>
    by_cases equal : name = value.localName
    · exact ⟨_, (TokenTable.get?_declareLiteral ..).trans (if_pos equal), .inr rfl⟩
    · exact ⟨entry, (TokenTable.get?_declareLiteral ..).trans ((if_neg equal).trans found), holds⟩
  | imported | composition | malformed => exact ⟨entry, found, holds⟩

/-! ### Names that are introduced in one way -/

theorem NamesClass.declareLocal (namesClass : state.NamesClass name) (other generated : String) :
    (state.declareLocal other generated).NamesClass name where
  toUnwritten := ⟨namesClass.noLiteral, namesClass.noAlias⟩
  noImport := namesClass.noImport
  plain entry found := by
    change (state.table.declareLocal other generated).get? name = some entry at found
    rw [TokenTable.get?_declareLocal] at found
    split at found
    · rename_i equal
      subst equal
      refine ⟨.localName, generated, nofun, ?_⟩
      cases before : state.table.get? name with
      | none =>
        rw [before] at found
        exact (Option.some.inj found).symm
      | some entry =>
        rcases namesClass.plain entry before with ⟨kind, primary, isClass, rfl⟩
        rw [before] at found
        have notLiteral : (TokenEntry.plain kind primary).isLiteral = false := by
          simpa [TokenEntry.isLiteral, TokenEntry.plain] using isClass
        simp only [notLiteral, Bool.false_eq_true, ↓reduceIte] at found
        exact (Option.some.inj found).symm
    · exact namesClass.plain entry found

theorem NamesClass.declareGlobal (namesClass : state.NamesClass name) (other : String) :
    (state.declareGlobal other).NamesClass name where
  toUnwritten := ⟨namesClass.noLiteral, namesClass.noAlias⟩
  noImport := namesClass.noImport
  plain entry found := by
    change (state.table.declareGlobal other).get? name = some entry at found
    rw [TokenTable.get?_declareGlobal] at found
    split at found
    · cases found
      exact ⟨.globalName, other, nofun, rfl⟩
    · exact namesClass.plain entry found

/-- A name that stands for a class still does when records introduce it as one only. -/
theorem NamesClass.declare (namesClass : state.NamesClass name)
    (isClass : record.introduced? = some name → record.isClass) :
    (record.declare context state).NamesClass name := by
  have differs : ∀ other, record.introduced? = some other → ¬ record.isClass → name ≠ other :=
    fun other introduces noClass equal => noClass (isClass (equal ▸ introduces))
  have unwritten : (record.declare context state).Unwritten name := by
    refine namesClass.toUnwritten.declare fun writes => ?_
    rcases Record.introduced?_of_writes? writes with ⟨introduces, noClass⟩
    exact noClass (isClass introduces)
  cases record with
  | declared other => exact namesClass.declareLocal other _
  | passed other => exact namesClass.declareGlobal other
  | keyframes other =>
    have declared := namesClass.declareLocal other (context.scopedName other)
    exact ⟨unwritten, declared.noImport, declared.plain⟩
  | imported reference =>
    refine ⟨unwritten, ?_, namesClass.plain⟩
    intro other member
    rcases List.mem_append.mp member with earlier | last
    · exact namesClass.noImport other earlier
    · rw [List.mem_singleton.mp last]
      exact (differs _ rfl nofun).symm
  | literal other content =>
    refine ⟨unwritten, namesClass.noImport, ?_⟩
    intro entry found
    apply namesClass.plain entry
    rw [← found]
    exact ((TokenTable.get?_declareLiteral ..).trans (if_neg (differs other rfl nofun))).symm
  | importedValue value source location =>
    have different := differs value.localName rfl nofun
    refine ⟨unwritten, ?_, ?_⟩
    · intro other member
      rcases List.mem_append.mp member with earlier | last
      · exact namesClass.noImport other earlier
      · rw [List.mem_singleton.mp last]
        exact different.symm
    · intro entry found
      apply namesClass.plain entry
      rw [← found]
      exact ((TokenTable.get?_declareLiteral ..).trans (if_neg different)).symm
  | composition owner content => exact ⟨unwritten, namesClass.noImport, namesClass.plain⟩
  | malformed => exact namesClass

/-- A name that stands for text still does when no record introduces it as a class. -/
theorem NamesText.declare (namesText : state.NamesText name)
    (noClass : record.introduced? = some name → ¬ record.isClass) :
    (record.declare context state).NamesText name := by
  have differs : ∀ other, record.introduced? = some other → record.isClass → name ≠ other :=
    fun other introduces isClass equal => noClass (equal ▸ introduces) isClass
  intro entry found
  cases record with
  | declared other | keyframes other =>
    change (state.table.declareLocal other _).get? name = some entry at found
    rw [TokenTable.get?_declareLocal, if_neg (differs other rfl rfl)] at found
    exact namesText entry found
  | passed other =>
    change (state.table.declareGlobal other).get? name = some entry at found
    rw [TokenTable.get?_declareGlobal, if_neg fun equal => differs other rfl rfl equal.1] at found
    exact namesText entry found
  | literal other content =>
    change (state.table.declareLiteral other _).get? name = some entry at found
    rw [TokenTable.get?_declareLiteral] at found
    split at found
    · cases found
      rfl
    · exact namesText entry found
  | importedValue value source location =>
    change (state.table.declareLiteral value.localName _).get? name = some entry at found
    rw [TokenTable.get?_declareLiteral] at found
    split at found
    · cases found
      rfl
    · exact namesText entry found
  | imported | composition | malformed => exact namesText entry found

/-! ## Replaying records -/

variable {records : List Record}

theorem Unwritten.replay (unwritten : state.Unwritten name)
    (writesOther : ∀ record ∈ records, record.writes? ≠ some name) :
    (records.foldl (Record.declare context) state).Unwritten name :=
  List.foldlRecOn (motive := (Unwritten · name)) records _ unwritten
    fun _ unwritten record member => unwritten.declare (writesOther record member)

theorem HasOwn.replay (own : state.HasOwn name (context.scopedName name) .localName)
    (writesOther : ∀ record ∈ records, record.writes? ≠ some name) :
    (records.foldl (Record.declare context) state).HasOwn name (context.scopedName name)
      .localName :=
  List.foldlRecOn (motive := (HasOwn · name (context.scopedName name) .localName)) records _ own
    fun _ own record member => own.declare (writesOther record member)

/-- A name that some record scopes, and no record writes to, has its scoped name of its own. -/
theorem hasOwn_replay (scopes : ∃ record ∈ records, record.scopes? = some name)
    (writesOther : ∀ record ∈ records, record.writes? ≠ some name) :
    (records.foldl (Record.declare context) state).HasOwn name (context.scopedName name)
      .localName := by
  rcases scopes with ⟨record, member, scopes⟩
  rcases List.append_of_mem member with ⟨before, after, rfl⟩
  rw [List.foldl_append, List.foldl_cons]
  exact (hasOwn_declare scopes).replay fun other later =>
    writesOther other (List.mem_append_right _ (List.mem_cons_of_mem _ later))

theorem HasOwnOrText.replay (own : state.HasOwnOrText name (context.scopedName name)) :
    (records.foldl (Record.declare context) state).HasOwnOrText name (context.scopedName name) :=
  List.foldlRecOn (motive := (HasOwnOrText · name (context.scopedName name))) records _ own
    fun _ own _ _ => own.declare

theorem hasOwnOrText_replay (scopes : ∃ record ∈ records, record.scopes? = some name) :
    (records.foldl (Record.declare context) state).HasOwnOrText name (context.scopedName name) := by
  rcases scopes with ⟨record, member, scopes⟩
  rcases List.append_of_mem member with ⟨before, after, rfl⟩
  rw [List.foldl_append, List.foldl_cons]
  exact (hasOwn_declare scopes).orText.replay

theorem NamesClass.replay (namesClass : state.NamesClass name)
    (isClass : ∀ record ∈ records, record.introduced? = some name → record.isClass) :
    (records.foldl (Record.declare context) state).NamesClass name :=
  List.foldlRecOn (motive := (NamesClass · name)) records _ namesClass
    fun _ namesClass record member => namesClass.declare (isClass record member)

theorem NamesText.replay (namesText : state.NamesText name)
    (noClass : ∀ record ∈ records, record.introduced? = some name → ¬ record.isClass) :
    (records.foldl (Record.declare context) state).NamesText name :=
  List.foldlRecOn (motive := (NamesText · name)) records _ namesText
    fun _ namesText record member => namesText.declare (noClass record member)

end ModuleState

end ScopedStyles
