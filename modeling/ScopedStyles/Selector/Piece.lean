import ScopedStyles.Text.Cut
import ScopedStyles.Selector.Span

/-!
Selectors cut into pieces: the classes and ids in scanned position, the `:global` and `:local`
switches and wrappers, the pseudo-classes whose arguments are selectors themselves, and everything
else verbatim. Which names are local is decided later, from the pieces alone.
-/

namespace ScopedStyles.Selector

open Text

inductive Sigil where
  | dot
  | hash
deriving DecidableEq, Repr

def Sigil.character : Sigil → Char
  | .dot => '.'
  | .hash => '#'

inductive Piece where
  | verbatim (text : List Char)
  | name (sigil : Sigil) (spelling : List Char)
  /-- A bare `:global` or `:local` with the white space behind it. -/
  | switch (isGlobal : Bool)
  | wrapper (isGlobal : Bool) (arguments : List (List Piece))
  /-- A pseudo-class with selectors as arguments, its name as spelled. -/
  | functional (name : List Char) (arguments : List (List Piece))
deriving Repr

namespace Piece

def selectorFunctions : List String :=
  ["not", "is", "where", "has", "matches", "-webkit-any", "-moz-any", "host", "host-context"]

def scope? (name : List Char) : Option Bool :=
  let lower := String.ofList (name.map Char.toLower)
  if lower = "global" then some true
  else if lower = "local" then some false
  else none

def takesSelectors (name : List Char) : Bool :=
  selectorFunctions.contains (String.ofList (name.map Char.toLower))

/-- The text of a pseudo-class that is not taken apart. -/
def pseudo (name arguments : List Char) : Piece :=
  .verbatim (':' :: name ++ arguments)

def argumentItems (group : List Char) : List (List Char) :=
  commaItems (withoutClosing (group.drop 1))

theorem length_rest_le (text : List Char) :
    (spanArguments (spanName text).2).2.length ≤ text.length :=
  Nat.le_trans (length_le_of_append (spanArguments_append _)).2
    (length_le_of_append (spanName_append text)).2

theorem length_item_le {text item : List Char}
    (member : item ∈ argumentItems (spanArguments (spanName text).2).1) :
    (trimCharacters item).length ≤ text.length := by
  have trimmed := length_trimCharacters_le item
  have cut := length_le_of_mem_commaItems member
  have closing := length_withoutClosing_le ((spanArguments (spanName text).2).1.drop 1)
  have group := (length_le_of_append (spanArguments_append (spanName text).2)).1
  have behind := (length_le_of_append (spanName_append text)).2
  rw [List.length_drop] at closing
  omega

def read : List Char → List Piece
  | [] => []
  | character :: rest =>
    if character = '\\' then .verbatim (character :: rest.take 1) :: read (rest.drop 1)
    else if (Shield.opened character).isSome then
      let span := spanShield ⟨Shield.opened character, false⟩ rest
      .verbatim (character :: span.1) :: read span.2
    else if (character = '.' || character = '#') && (rest.head?.map startsName).getD false then
      let span := spanName rest
      .name (if character = '.' then .dot else .hash) span.1 :: read span.2
    else if character = ':' && rest.head? = some ':' then
      let name := spanName (rest.drop 1)
      let arguments := spanArguments name.2
      .verbatim ([':', ':'] ++ name.1 ++ arguments.1) :: read arguments.2
    else if character = ':' then
      let name := spanName rest
      let arguments := spanArguments name.2
      let items := argumentItems arguments.1
      match scope? name.1 with
      | some isGlobal =>
        if arguments.1.isEmpty then .switch isGlobal :: read (name.2.dropWhile isBlank)
        else
          .wrapper isGlobal (items.attach.map fun item => read (trimCharacters item.1)) ::
            read arguments.2
      | none =>
        if !arguments.1.isEmpty && takesSelectors name.1 then
          .functional name.1 (items.attach.map fun item => read (trimCharacters item.1)) ::
            read arguments.2
        else pseudo name.1 arguments.1 :: read arguments.2
    else .verbatim [character] :: read rest
termination_by text => text.length
decreasing_by
  · simp only [List.length_drop, List.length_cons]
    omega
  · exact Nat.lt_succ_of_le (length_le_of_append (spanShield_append _ rest)).2
  · exact Nat.lt_succ_of_le (length_le_of_append (spanName_append rest)).2
  · have shorter := length_rest_le (rest.drop 1)
    simp only [List.length_drop] at shorter
    exact Nat.lt_succ_of_le (Nat.le_trans shorter (Nat.sub_le _ _))
  · exact Nat.lt_succ_of_le (Nat.le_trans (length_dropWhile_le _ _)
      (length_le_of_append (spanName_append rest)).2)
  · exact Nat.lt_succ_of_le (length_item_le item.2)
  · exact Nat.lt_succ_of_le (length_rest_le rest)
  · exact Nat.lt_succ_of_le (length_item_le item.2)
  · exact Nat.lt_succ_of_le (length_rest_le rest)
  · exact Nat.lt_succ_of_le (length_rest_le rest)
  · exact Nat.lt_succ_self _

end Piece

end ScopedStyles.Selector
