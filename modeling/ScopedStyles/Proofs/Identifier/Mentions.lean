import Mathlib.Data.List.TakeWhile
import ScopedStyles.Identifier.Mention

/-!
Texts and the names that they mention. The pieces that a text is cut into spell the text, so
renaming changes the names that are mentioned and nothing else. A text is closed when every string
and every address that it opens ends in it; a closed text is read as it is whatever stands behind
it, unless a word goes on there. So a word that stands behind a closed text is renamed for itself.
-/

namespace ScopedStyles

open Text

namespace Mention

/-! ## Pieces spell the text -/

theorem text_ofWord (previous next : Option Char) (word : List Char) :
    (ofWord previous next word).text = word := by
  unfold ofWord
  split <;> rfl

theorem flatMap_text_readAfter (previous : Option Char) (value : List Char) :
    (readAfter previous value).flatMap text = value := by
  fun_induction readAfter previous value with
  | case1 => rfl
  | case2 previous character rest quotes span induction =>
    rw [List.flatMap_cons, induction, text, List.cons_append, spanString_append]
  | case3 previous character rest noQuote continues word after opens span induction =>
    rw [List.flatMap_cons, induction, text, List.append_assoc, spanAddress_append,
      List.cons_append, List.takeWhile_append_dropWhile]
  | case4 previous character rest noQuote continues word after noAddress induction =>
    rw [List.flatMap_cons, induction, text_ofWord, List.cons_append,
      List.takeWhile_append_dropWhile]
  | case5 previous character rest noQuote stops induction =>
    rw [List.flatMap_cons, induction, text, List.singleton_append]

/-- A word that stands for a name is an identifier, and not called like a function. -/
theorem ofWord_cases (previous next : Option Char) (word : List Char) :
    ofWord previous next word = .other word ∨
      ofWord previous next word = .name word ∧ Identifier.isPlain word ∧ next ≠ some '(' := by
  unfold ofWord
  split
  · rename_i offered
    exact .inr ⟨rfl, by simp_all⟩
  · exact .inl rfl

theorem isPlain_of_ofWord {previous next : Option Char} {word name : List Char}
    (isName : ofWord previous next word = .name name) : Identifier.isPlain name := by
  rcases ofWord_cases previous next word with other | ⟨same, plain, -⟩
  · cases isName.symm.trans other
  · cases isName.symm.trans same
    exact plain

theorem isPlain_of_mem_readAfter {previous : Option Char} {value name : List Char}
    (member : .name name ∈ readAfter previous value) : Identifier.isPlain name := by
  fun_induction readAfter previous value with
  | case1 => cases member
  | case2 previous character rest quotes span induction =>
    rcases List.mem_cons.mp member with first | later
    · cases first
    · exact induction later
  | case3 previous character rest noQuote continues word after opens span induction =>
    rcases List.mem_cons.mp member with first | later
    · cases first
    · exact induction later
  | case4 previous character rest noQuote continues word after noAddress induction =>
    rcases List.mem_cons.mp member with first | later
    · exact isPlain_of_ofWord first.symm
    · exact induction later
  | case5 previous character rest noQuote stops induction =>
    rcases List.mem_cons.mp member with first | later
    · cases first
    · exact induction later

/-! ## Strings, addresses and words at the beginning of a text -/

/-- Whether a text is what stands behind the opening quote of a string, with the closing one. -/
def endsString (quote : Char) : List Char → Bool
  | [] => false
  | ['\\'] => false
  | '\\' :: _ :: rest => endsString quote rest
  | character :: rest => if character = quote then rest.isEmpty else endsString quote rest

theorem spanString_cons {quote character : Char} (plain : character ≠ '\\') (rest : List Char) :
    spanString quote (character :: rest) =
      if character = quote then ([character], rest)
      else (character :: (spanString quote rest).1, (spanString quote rest).2) := by
  rw [spanString.eq_def]
  split <;> simp_all

theorem endsString_cons {quote character : Char} (plain : character ≠ '\\') (rest : List Char) :
    endsString quote (character :: rest) =
      if character = quote then rest.isEmpty else endsString quote rest := by
  rw [endsString.eq_def]
  split <;> simp_all

theorem spanString_of_endsString {quote : Char} (plainQuote : quote ≠ '\\') {inside : List Char}
    (ends : endsString quote inside) (rest : List Char) :
    spanString quote (inside ++ rest) = (inside, rest) ∧ inside.getLast? = some quote := by
  induction inside using endsString.induct quote with
  | case1 => cases ends
  | case2 => cases ends
  | case3 escaped behind induction =>
    rw [endsString] at ends
    rcases induction ends with ⟨same, last⟩
    simp [spanString, same, List.getLast?_cons, last]
  | case4 behind notEscape notEscaped =>
    rw [endsString_cons plainQuote, if_pos rfl, List.isEmpty_iff] at ends
    simp [spanString_cons plainQuote, ends]
  | case5 character behind notEscape notEscaped goesOn induction =>
    have plain : character ≠ '\\' := by
      intro escapes
      cases behind with
      | nil => exact notEscape escapes rfl
      | cons next more => exact notEscaped next more escapes rfl
    rw [endsString_cons plain, if_neg goesOn] at ends
    rcases induction ends with ⟨same, last⟩
    simp [spanString_cons plain, goesOn, same, List.getLast?_cons, last]

theorem spanAddress_of_not_mem {inside : List Char} (opened : ')' ∉ inside) (rest : List Char) :
    spanAddress (inside ++ ')' :: rest) = (inside ++ [')'], rest) := by
  induction inside with
  | nil => simp [spanAddress]
  | cons character behind induction =>
    rcases not_or.mp (mt List.mem_cons.mpr opened) with ⟨different, further⟩
    simp [spanAddress, Ne.symm different, induction further]

structure IsWord (word : List Char) : Prop where
  ne_nil : word ≠ []
  continues : ∀ character ∈ word, Identifier.isCharacter character

def Stops (text : List Char) : Prop :=
  ∀ next ∈ text.head?, Identifier.isCharacter next = false

theorem takeWhile_word {word rest : List Char}
    (continues : ∀ character ∈ word, Identifier.isCharacter character) (stops : Stops rest) :
    (word ++ rest).takeWhile Identifier.isCharacter = word ∧
      (word ++ rest).dropWhile Identifier.isCharacter = rest := by
  rw [List.takeWhile_append_of_pos continues, List.dropWhile_append_of_pos continues]
  cases rest with
  | nil => simp
  | cons next more =>
    have noWord : Identifier.isCharacter next = false := stops next rfl
    simp [noWord]

theorem isCharacter_of_isQuote {character : Char} (quotes : isQuote character) :
    Identifier.isCharacter character = false ∧ marks (some character) = false ∧
      character ≠ '\\' := by
  rcases Bool.or_eq_true_iff.mp quotes with double | single
  · rw [eq_of_beq double]
    decide
  · rw [eq_of_beq single]
    decide

section

variable {previous : Option Char} {rest : List Char}

theorem readAfter_string {quote : Char} {inside : List Char} (quotes : isQuote quote)
    (ends : endsString quote inside) :
    readAfter previous (quote :: inside ++ rest) =
      .other (quote :: inside) :: readAfter none rest := by
  have plain := (isCharacter_of_isQuote quotes).2.2
  rw [List.cons_append, readAfter, if_pos quotes]
  simp only [(spanString_of_endsString plain ends rest).1]

theorem readAfter_cons_word {character : Char} {letters : List Char}
    (isWord : IsWord (character :: letters)) (stops : Stops rest) :
    readAfter previous (character :: letters ++ rest) =
      if rest.head? == some '(' && opensAddress (character :: letters) then
        .other (character :: letters ++ (spanAddress rest).1) ::
          readAfter none (spanAddress rest).2
      else ofWord previous rest.head? (character :: letters) :: readAfter none rest := by
  have continues := isWord.continues character List.mem_cons_self
  have noQuote : ¬ isQuote character := by
    intro quotes
    rw [(isCharacter_of_isQuote quotes).1] at continues
    cases continues
  rcases takeWhile_word (fun letter member => isWord.continues letter
    (List.mem_cons_of_mem character member)) stops with ⟨taken, dropped⟩
  rw [List.cons_append, readAfter, if_neg noQuote, if_pos continues]
  simp only [taken, dropped]

theorem readAfter_address {word inside : List Char} (isWord : IsWord word)
    (opens : opensAddress word) (opened : ')' ∉ inside) :
    readAfter previous (word ++ '(' :: inside ++ [')'] ++ rest) =
      .other (word ++ '(' :: inside ++ [')']) :: readAfter none rest := by
  cases word with
  | nil => exact absurd rfl isWord.ne_nil
  | cons character letters =>
    have stops : Stops ('(' :: inside ++ ')' :: rest) := by
      rintro next ⟨rfl⟩
      decide
    have stillOpened : ')' ∉ '(' :: inside := by
      simpa using opened
    rw [← List.append_cons, List.append_assoc, readAfter_cons_word isWord stops, List.cons_append,
      List.head?_cons, opens, ← List.cons_append, spanAddress_of_not_mem stillOpened]
    simp

theorem readAfter_word {word : List Char} (isWord : IsWord word) (stops : Stops rest)
    (plain : rest.head? = some '(' → opensAddress word = false) :
    readAfter previous (word ++ rest) = ofWord previous rest.head? word :: readAfter none rest := by
  cases word with
  | nil => exact absurd rfl isWord.ne_nil
  | cons character letters =>
    rw [readAfter_cons_word isWord stops, if_neg]
    intro starts
    rw [Bool.and_eq_true, beq_iff_eq] at starts
    rw [plain starts.1] at starts
    cases starts.2

theorem readAfter_other {character : Char} (noQuote : ¬ isQuote character)
    (stops : Identifier.isCharacter character = false) :
    readAfter previous (character :: rest) = .other [character] :: readAfter (some character) rest := by
  rw [readAfter, if_neg noQuote, stops, if_neg Bool.false_ne_true]

end

/-! ## Closed texts -/

/-- Every string and every address that a text opens ends in it. -/
inductive Closed : List Char → Prop
  | nil : Closed []
  | string {quote : Char} {inside rest : List Char} (quotes : isQuote quote)
      (ends : endsString quote inside) (closed : Closed rest) : Closed (quote :: inside ++ rest)
  | address {word inside rest : List Char} (isWord : IsWord word) (opens : opensAddress word)
      (opened : ')' ∉ inside) (closed : Closed rest) :
      Closed (word ++ '(' :: inside ++ [')'] ++ rest)
  | word {word rest : List Char} (isWord : IsWord word) (stops : Stops rest)
      (plain : rest.head? = some '(' → opensAddress word = false) (closed : Closed rest) :
      Closed (word ++ rest)
  | other {character : Char} {rest : List Char} (noQuote : ¬ isQuote character)
      (stops : Identifier.isCharacter character = false) (closed : Closed rest) :
      Closed (character :: rest)

/-- No word of the first text goes on in the second one, nor is its last word a function there. -/
def Apart (text rest : List Char) : Prop :=
  ∀ last ∈ text.getLast?, Identifier.isCharacter last → Stops rest ∧ rest.head? ≠ some '('

theorem Apart.behind {front text rest : List Char} (apart : Apart (front ++ text) rest) :
    Apart text rest := by
  intro last isLast
  apply apart last
  rw [Option.mem_def] at isLast ⊢
  rw [List.getLast?_append, isLast]
  rfl

theorem Apart.word {word text rest : List Char} (apart : Apart (word ++ text) rest)
    (isWord : IsWord word) (stops : Stops text) :
    Stops (text ++ rest) ∧
      ((text ++ rest).head? == some '(') = (text.head? == some '(') := by
  cases text with
  | cons next more => exact ⟨stops, rfl⟩
  | nil =>
    rw [List.append_nil] at apart
    have isLast := List.getLast?_eq_some_getLast isWord.ne_nil
    have further := apart _ isLast (isWord.continues _ (List.getLast_mem isWord.ne_nil))
    exact ⟨further.1, beq_false_of_ne further.2⟩

theorem Closed.append {text rest : List Char} (closed : Closed text) (apart : Apart text rest)
    (behind : Closed rest) : Closed (text ++ rest) := by
  induction closed with
  | nil => exact behind
  | string quotes ends closed induction =>
    rw [List.append_assoc]
    exact .string quotes ends (induction apart.behind)
  | @address word inside text isWord opens opened closed induction =>
    rw [List.append_assoc]
    exact .address isWord opens opened (induction apart.behind)
  | word isWord stops plain closed induction =>
    rcases apart.word isWord stops with ⟨stillStops, next⟩
    rw [List.append_assoc]
    refine .word isWord stillStops ?_ (induction apart.behind)
    intro opened
    exact plain (by simpa [opened] using next)
  | @other character text noQuote stops closed induction =>
    exact .other noQuote stops (induction (@Apart.behind [character] text _ apart))

theorem readAfter_congr {previous other : Option Char} (same : marks previous = marks other)
    (text : List Char) : readAfter previous text = readAfter other text := by
  cases text with
  | nil => simp [readAfter]
  | cons character rest => simp only [readAfter, ofWord, same]

theorem ofWord_congr {next other : Option Char} (same : (next == some '(') = (other == some '('))
    (previous : Option Char) (word : List Char) :
    ofWord previous next word = ofWord previous other word := by
  simp only [ofWord, bne, same]

theorem marks_of_isCharacter {character : Char} (continues : Identifier.isCharacter character) :
    marks (some character) = false := by
  have different (mark : Char) (noWord : Identifier.isCharacter mark = false) :
      character ≠ mark := by
    intro equal
    rw [equal, noWord] at continues
    cases continues
  simp [marks, different '#' (by decide), different '.' (by decide), different '@' (by decide),
    different '\\' (by decide)]

/-- What stands before the last piece of a text does not matter when the piece leaves no mark. -/
theorem readAfter_getLast? {front : List Char} {last : Char} (isLast : front.getLast? = some last)
    (noMark : marks (some last) = false) (behind rest : List Char) (previous : Option Char) :
    readAfter ((front ++ behind).getLast?.or previous) rest =
      readAfter (behind.getLast?.or none) rest := by
  apply readAfter_congr
  rw [List.getLast?_append, isLast]
  cases behind.getLast? with
  | none => exact noMark
  | some character => rfl

/-- A closed text is read as it is, and then what stands behind it. -/
theorem readAfter_append {text rest : List Char} (closed : Closed text) (apart : Apart text rest)
    (previous : Option Char) :
    readAfter previous (text ++ rest) =
      readAfter previous text ++ readAfter (text.getLast?.or previous) rest := by
  induction closed generalizing previous with
  | nil => simp [readAfter]
  | @string quote inside text quotes ends closed induction =>
    rcases isCharacter_of_isQuote quotes with ⟨_, noMark, plain⟩
    have isLast : (quote :: inside).getLast? = some quote := by
      rw [List.getLast?_cons, (spanString_of_endsString plain ends []).2]
      rfl
    rw [List.append_assoc, readAfter_string quotes ends, readAfter_string quotes ends,
      induction apart.behind, readAfter_getLast? isLast noMark]
    rfl
  | @address word inside text isWord opens opened closed induction =>
    have isLast : (word ++ '(' :: inside ++ [')']).getLast? = some ')' := List.getLast?_concat
    rw [List.append_assoc, readAfter_address isWord opens opened,
      readAfter_address isWord opens opened, induction apart.behind,
      readAfter_getLast? isLast (by decide)]
    rfl
  | @word word text isWord stops plain closed induction =>
    rcases apart.word isWord stops with ⟨stillStops, next⟩
    have stillPlain : (text ++ rest).head? = some '(' → opensAddress word = false := by
      intro opened
      exact plain (by simpa [opened] using next)
    have isLast := List.getLast?_eq_some_getLast isWord.ne_nil
    have noMark := marks_of_isCharacter (isWord.continues _ (List.getLast_mem isWord.ne_nil))
    rw [List.append_assoc, readAfter_word isWord stillStops stillPlain,
      readAfter_word isWord stops plain, induction apart.behind, ofWord_congr next,
      readAfter_getLast? isLast noMark]
    rfl
  | @other character text noQuote stops closed induction =>
    rw [List.cons_append, readAfter_other noQuote stops, readAfter_other noQuote stops,
      induction (@Apart.behind [character] text _ apart), List.getLast?_cons]
    cases text.getLast? <;> rfl

/-! ## Whole words -/

def Ends (text : List Char) : Prop :=
  ∀ last ∈ text.getLast?, Identifier.isCharacter last = false

theorem Ends.behind {front text : List Char} (ends : Ends (front ++ text)) : Ends text := by
  intro last isLast
  apply ends last
  rw [Option.mem_def] at isLast ⊢
  rw [List.getLast?_append, isLast]
  rfl

theorem Ends.apart {text : List Char} (ends : Ends text) (rest : List Char) : Apart text rest := by
  intro last isLast continues
  rw [ends last isLast] at continues
  cases continues

/-- A word stands in a text as a whole, outside strings and addresses: what is before it is closed
and marks nothing, and what is behind it neither goes on with the word nor makes it a function. -/
structure Stands (front word back : List Char) : Prop where
  closed : Closed front
  ends : Ends front
  unmarked : marks front.getLast? = false
  stops : Stops back
  noFunction : back.head? ≠ some '('

theorem isWord_of_isPlain {word : List Char} (plain : Identifier.isPlain word) : IsWord word := by
  have isCharacter_of_isStart : ∀ character, Identifier.isStart character →
      Identifier.isCharacter character := by
    intro character starts
    exact (Bool.and_eq_true_iff.mp starts).1
  constructor
  · rintro rfl
    cases plain
  · intro character member
    unfold Identifier.isPlain at plain
    split at plain
    · cases plain
    · rename_i rest
      split at plain
      · cases plain
      · rename_i second more
        simp only [Bool.and_eq_true, List.all_eq_true] at plain
        rcases List.mem_cons.mp member with rfl | later
        · decide
        · rcases List.mem_cons.mp later with rfl | later
          · exact isCharacter_of_isStart _ plain.1
          · exact plain.2 _ later
    · simp only [Bool.and_eq_true, List.all_eq_true] at plain
      rcases List.mem_cons.mp member with rfl | later
      · exact isCharacter_of_isStart _ plain.1
      · exact plain.2 _ later

/-- A plain identifier that stands in a text as a whole is mentioned there. -/
theorem readAfter_of_stands {front word back : List Char} (stands : Stands front word back)
    (plain : Identifier.isPlain word) :
    readAfter none (front ++ (word ++ back)) =
      readAfter none front ++ .name word :: readAfter none back := by
  have isName : ofWord (front.getLast?.or none) back.head? word = .name word := by
    rw [ofWord, plain, Option.or_none, stands.unmarked]
    simp [stands.noFunction]
  have noAddress : back.head? = some '(' → opensAddress word = false :=
    fun opened => absurd opened stands.noFunction
  rw [readAfter_append stands.closed (stands.ends.apart _),
    readAfter_word (isWord_of_isPlain plain) stands.stops noAddress, isName]

/-! ## Renamed texts -/

variable {rename other : String → Option String} {previous : Option Char}

theorem renamed_congr {mention : Mention}
    (same : ∀ word, mention = .name word →
      rename (String.ofList word) = other (String.ofList word)) :
    mention.renamed rename = mention.renamed other := by
  cases mention with
  | name word => rw [renamed, renamed, same word rfl]
  | other text => rfl

theorem head?_renamed {text : List Char} (stops : Stops text) :
    ((readAfter previous text).flatMap (renamed rename)).head? = text.head? := by
  cases text with
  | nil => simp [readAfter]
  | cons character rest =>
    have noWord : Identifier.isCharacter character = false := stops character rfl
    rw [readAfter, noWord]
    split <;> simp [renamed]

theorem getLast?_renamed {text : List Char} (closed : Closed text) (ends : Ends text) :
    ((readAfter previous text).flatMap (renamed rename)).getLast? = text.getLast? := by
  induction closed generalizing previous with
  | nil => simp [readAfter]
  | string quotes isString closed induction =>
    rw [readAfter_string quotes isString, List.flatMap_cons, List.getLast?_append,
      List.getLast?_append, induction ends.behind]
    rfl
  | address isWord opens opened closed induction =>
    rw [readAfter_address isWord opens opened, List.flatMap_cons, List.getLast?_append,
      List.getLast?_append, induction ends.behind]
    rfl
  | @word word text isWord stops plain closed induction =>
    rw [readAfter_word isWord stops plain, List.flatMap_cons, List.getLast?_append,
      List.getLast?_append, induction ends.behind]
    cases isLast : text.getLast? with
    | some last => rfl
    | none =>
      have nothing := List.getLast?_eq_none_iff.mp isLast
      rw [nothing, List.append_nil] at ends
      have noWord := ends _ (List.getLast?_eq_some_getLast isWord.ne_nil)
      rw [isWord.continues _ (List.getLast_mem isWord.ne_nil)] at noWord
      cases noWord
  | @other character text noQuote stops closed induction =>
    rw [readAfter_other noQuote stops, List.flatMap_cons, List.getLast?_append,
      induction (@Ends.behind [character] text ends), List.getLast?_cons]
    cases text.getLast? <;> rfl

/-- What is renamed in a closed text is closed when every name becomes a closed text. -/
theorem Closed.renamed {text : List Char} (closed : Closed text)
    (images : ∀ word image, .name word ∈ readAfter previous text →
      rename (String.ofList word) = some image → Closed image.toList) :
    Closed ((readAfter previous text).flatMap (renamed rename)) := by
  induction closed generalizing previous with
  | nil => simpa [readAfter] using Closed.nil
  | string quotes isString closed induction =>
    rw [readAfter_string quotes isString] at images ⊢
    exact .string quotes isString
      (induction fun word image member => images word image (List.mem_cons_of_mem _ member))
  | address isWord opens opened closed induction =>
    rw [readAfter_address isWord opens opened] at images ⊢
    exact .address isWord opens opened
      (induction fun word image member => images word image (List.mem_cons_of_mem _ member))
  | @word word text isWord stops plain closed induction =>
    rw [readAfter_word isWord stops plain] at images ⊢
    have further := induction fun word image member =>
      images word image (List.mem_cons_of_mem _ member)
    have sameHead : ((readAfter none text).flatMap (Mention.renamed rename)).head? = text.head? :=
      head?_renamed stops
    have stillStops : Stops ((readAfter none text).flatMap (Mention.renamed rename)) := by
      rw [Stops, sameHead]
      exact stops
    have unchanged : Closed (word ++ (readAfter none text).flatMap (Mention.renamed rename)) :=
      .word isWord stillStops (fun opened => plain (sameHead ▸ opened)) further
    rw [List.flatMap_cons]
    rcases ofWord_cases previous text.head? word with mention | ⟨mention, -, noFunction⟩
    · rw [mention]
      exact unchanged
    · rw [mention] at images ⊢
      rw [Mention.renamed]
      cases named : rename (String.ofList word) with
      | none => exact unchanged
      | some image =>
        have closedImage := images word image List.mem_cons_self named
        refine closedImage.append ?_ further
        intro _ _ _
        rw [sameHead]
        exact ⟨stillStops, noFunction⟩
  | @other character text noQuote stops closed induction =>
    rw [readAfter_other noQuote stops] at images ⊢
    exact .other noQuote stops
      (induction fun word image member => images word image (List.mem_cons_of_mem _ member))

/-- A word that stands in a text as a whole still does when what is around it is renamed. -/
theorem Stands.renamed {front word back : List Char} (stands : Stands front word back)
    (images : ∀ name image, .name name ∈ readAfter none front →
      rename (String.ofList name) = some image → Closed image.toList) :
    Stands ((readAfter none front).flatMap (Mention.renamed rename)) word
      ((readAfter none back).flatMap (Mention.renamed rename)) := by
  have sameLast : ((readAfter none front).flatMap (Mention.renamed rename)).getLast? =
      front.getLast? := getLast?_renamed stands.closed stands.ends
  have sameHead : ((readAfter none back).flatMap (Mention.renamed rename)).head? = back.head? :=
    head?_renamed stands.stops
  constructor
  · exact stands.closed.renamed images
  · rw [Ends, sameLast]
    exact stands.ends
  · rw [sameLast]
    exact stands.unmarked
  · rw [Stops, sameHead]
    exact stands.stops
  · rw [sameHead]
    exact stands.noFunction

end Mention

/-! ## Renaming a value -/

variable {rename other : String → Option String}

theorem renameMentions_congr {text : String}
    (same : ∀ name ∈ mentionedNames text, rename name = other name) :
    renameMentions rename text = renameMentions other text := by
  unfold renameMentions
  rw [List.flatMap_def, List.flatMap_def, List.map_congr_left]
  intro mention member
  refine Mention.renamed_congr ?_
  rintro word rfl
  exact same _ (List.mem_filterMap.mpr ⟨.name word, member, rfl⟩)

theorem renameMentions_none (text : String) : renameMentions (fun _ => none) text = text := by
  have renamed : Mention.renamed (fun _ => none) = Mention.text := by
    funext mention
    cases mention <;> rfl
  rw [renameMentions, renamed, Mention.read, Mention.flatMap_text_readAfter, String.ofList_toList]

theorem renameMentions_eq_self {text : String}
    (unnamed : ∀ name ∈ mentionedNames text, rename name = none) :
    renameMentions rename text = text := by
  rw [renameMentions_congr unnamed, renameMentions_none]

theorem isIdentifier_of_mem_mentionedNames {text name : String}
    (member : name ∈ mentionedNames text) : isIdentifier name := by
  rcases List.mem_filterMap.mp member with ⟨mention, inside, isName⟩
  cases mention with
  | other text => cases isName
  | name word =>
    cases isName
    rw [isIdentifier, String.toList_ofList]
    exact Mention.isPlain_of_mem_readAfter inside

/-- A word that stands in a value as a whole is renamed, and what is around it is renamed as if it
stood alone. -/
theorem renameMentions_of_stands {front word back : String}
    (stands : Mention.Stands front.toList word.toList back.toList) (plain : isIdentifier word) :
    renameMentions rename (front ++ word ++ back) =
      renameMentions rename front ++ (rename word).getD word ++ renameMentions rename back := by
  have pieces := Mention.readAfter_of_stands stands plain
  rw [← List.append_assoc, ← String.toList_append, ← String.toList_append] at pieces
  rw [renameMentions, Mention.read, pieces, List.flatMap_append, List.flatMap_cons,
    Mention.renamed, String.ofList_toList]
  cases rename word <;>
    simp [renameMentions, Mention.read, String.ofList_append, String.append_assoc]

end ScopedStyles
