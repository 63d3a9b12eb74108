import ScopedStyles.Identifier.Basic

/-!
Identifiers mentioned in a value. A value is cut into the words that mention a name and the text
between them; strings, addresses in `url(…)`, function names, and words that belong to a number, a
hash, a class, an at-rule or an escape mention nothing. Renaming replaces some of the words and
leaves every other character as it stands.
-/

namespace ScopedStyles

open Text

inductive Mention where
  | name (word : List Char)
  | other (text : List Char)
deriving DecidableEq, Repr

namespace Mention

def text : Mention → List Char
  | .name word => word
  | .other text => text

/-! ## Reading a value -/

/-- The inside of a string through its closing quote, and what follows. An escaped quote does not
close; a string that is never closed takes everything. -/
def spanString (quote : Char) : List Char → List Char × List Char
  | [] => ([], [])
  | ['\\'] => (['\\'], [])
  | '\\' :: escaped :: rest =>
    let (inside, after) := spanString quote rest
    ('\\' :: escaped :: inside, after)
  | character :: rest =>
    if character = quote then ([character], rest)
    else
      let (inside, after) := spanString quote rest
      (character :: inside, after)

def spanAddress : List Char → List Char × List Char
  | [] => ([], [])
  | character :: rest =>
    if character = ')' then ([character], rest)
    else
      let (inside, after) := spanAddress rest
      (character :: inside, after)

theorem spanString_append (quote : Char) (text : List Char) :
    (spanString quote text).1 ++ (spanString quote text).2 = text := by
  fun_induction spanString quote text <;> simp_all

theorem spanAddress_append (text : List Char) :
    (spanAddress text).1 ++ (spanAddress text).2 = text := by
  fun_induction spanAddress text <;> simp_all

theorem length_spanString_le (quote : Char) (text : List Char) :
    (spanString quote text).2.length ≤ text.length := by
  have whole := congrArg List.length (spanString_append quote text)
  rw [List.length_append] at whole
  omega

theorem length_spanAddress_le (text : List Char) :
    (spanAddress text).2.length ≤ text.length := by
  have whole := congrArg List.length (spanAddress_append text)
  rw [List.length_append] at whole
  omega

def opensAddress (word : List Char) : Bool :=
  word.map Char.toLower == ['u', 'r', 'l']

/-- Whether a word that follows this character belongs to something other than a name. -/
def marks (previous : Option Char) : Bool :=
  previous == some '#' || previous == some '.' || previous == some '@' || previous == some '\\'

def ofWord (previous next : Option Char) (word : List Char) : Mention :=
  if Identifier.isPlain word && next != some '(' && !marks previous then .name word
  else .other word

/-- Cut a value into mentions; `previous` is the character before it. -/
def readAfter (previous : Option Char) : List Char → List Mention
  | [] => []
  | character :: rest =>
    if isQuote character then
      let span := spanString character rest
      .other (character :: span.1) :: readAfter none span.2
    else if Identifier.isCharacter character then
      let word := character :: rest.takeWhile Identifier.isCharacter
      let after := rest.dropWhile Identifier.isCharacter
      if after.head? == some '(' && opensAddress word then
        let span := spanAddress after
        .other (word ++ span.1) :: readAfter none span.2
      else ofWord previous after.head? word :: readAfter none after
    else .other [character] :: readAfter (some character) rest
termination_by text => text.length
decreasing_by
  · exact Nat.lt_succ_of_le (length_spanString_le character rest)
  · exact Nat.lt_succ_of_le
      (Nat.le_trans (length_spanAddress_le _) (length_dropWhile_le _ rest))
  · exact Nat.lt_succ_of_le (length_dropWhile_le _ rest)
  · exact Nat.lt_succ_self _

def read (value : String) : List Mention :=
  readAfter none value.toList

/-! ## Renaming -/

def renamed (rename : String → Option String) : Mention → List Char
  | .name word => ((rename (String.ofList word)).map String.toList).getD word
  | .other text => text

end Mention

def mentionedNames (value : String) : List String :=
  (Mention.read value).filterMap fun mention =>
    match mention with
    | .name word => some (String.ofList word)
    | .other _ => none

def renameMentions (rename : String → Option String) (value : String) : String :=
  String.ofList ((Mention.read value).flatMap (Mention.renamed rename))

example : mentionedNames "1px a, b-c 'a' url(a) #a f(a)" = ["a", "b-c", "a"] := by decide +kernel

end ScopedStyles
