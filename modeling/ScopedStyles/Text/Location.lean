/-!
Positions in a text. An offset counts UTF-8 bytes from zero; lines and columns count from one, and
a column counts characters.
-/

namespace ScopedStyles

structure Location where
  offset : Nat
  line : Nat
  column : Nat
deriving DecidableEq, Repr, Inhabited

namespace Location

def start : Location := ⟨0, 1, 1⟩

def after (location : Location) (character : Char) : Location :=
  if character = '\n' then ⟨location.offset + 1, location.line + 1, 1⟩
  else ⟨location.offset + character.utf8Size, location.line, location.column + 1⟩

def text (location : Location) : String :=
  toString location.line ++ ":" ++ toString location.column

example : (Location.mk 9 3 3).text = "3:3" := by decide

theorem offset_after (location : Location) (character : Char) :
    (location.after character).offset = location.offset + character.utf8Size := by
  unfold after
  split
  · rename_i equal
    subst equal
    rfl
  · rfl

theorem offset_lt_after (location : Location) (character : Char) :
    location.offset < (location.after character).offset := by
  rw [offset_after]
  exact Nat.lt_add_of_pos_right character.utf8Size_pos

/-! ## From offsets to positions -/

/-- Walk from `location` to `offset`; `lineStart` is the offset at which the current line begins.
Inside a character, which spans several bytes, the column counts bytes instead of characters. -/
def walk (offset : Nat) : Location → (lineStart : Nat) → List Char → Location
  | location, _, [] => location
  | location, lineStart, character :: rest =>
    if offset ≤ location.offset then location
    else if offset < location.offset + character.utf8Size then
      ⟨offset, location.line, offset - lineStart + 1⟩
    else
      let next := location.after character
      walk offset next (if character = '\n' then next.offset else lineStart) rest

def ofOffset (text : String) (offset : Nat) : Location :=
  walk offset start 0 text.toList

example : ofOffset "ab\nc" 4 = ⟨4, 2, 2⟩ := by decide
example : ofOffset "aé" 2 = ⟨2, 1, 3⟩ := by decide
example : ofOffset "aé" 9 = ⟨3, 1, 3⟩ := by decide

end Location

/-! ## Texts whose characters know their position -/

structure LocatedCharacter where
  character : Char
  location : Location
deriving DecidableEq, Repr

def locateFrom : Location → List Char → List LocatedCharacter
  | _, [] => []
  | location, character :: rest =>
    ⟨character, location⟩ :: locateFrom (location.after character) rest

def locateText (text : String) : List LocatedCharacter :=
  locateFrom .start text.toList

@[simp] theorem map_character_locateFrom (location : Location) (text : List Char) :
    (locateFrom location text).map LocatedCharacter.character = text := by
  induction text generalizing location with
  | nil => rfl
  | cons character rest induction => simp [locateFrom, induction]

end ScopedStyles
