import ScopedStyles.Text.Location

/-!
Tables of lines. A table holds the offsets at which the lines of a text begin, so that positions in
that text are looked up without walking it: the line of an offset is found by halving the table,
and the column in the part of the text from the beginning of that line.
-/

namespace ScopedStyles

/-! ## Halving -/

inductive Placement where
  | hit (place : Nat)
  | miss (place : Nat)
deriving DecidableEq, Repr

/-- Find where a number belongs among increasing ones, those before `low` being smaller and those
from `high` on greater. -/
def bisect (numbers : Array Nat) (number low high : Nat) (inside : high ≤ numbers.size) :
    Placement :=
  if proper : low < high then
    let middle := low + (high - low) / 2
    if numbers[middle] = number then .hit middle
    else if numbers[middle] < number then bisect numbers number (middle + 1) high inside
    else bisect numbers number low middle (by omega)
  else .miss low
termination_by high - low

def placeAmong (numbers : Array Nat) (number : Nat) : Placement :=
  bisect numbers number 0 numbers.size (Nat.le_refl _)

example : placeAmong #[0, 3, 4, 9] 4 = .hit 2 := by decide +kernel
example : placeAmong #[0, 3, 4, 9] 5 = .miss 3 := by decide +kernel

/-! ## Parts of a text -/

namespace Text

def bytes (text : String) : List UInt8 :=
  text.toUTF8.data.toList

def lineEnd : UInt8 := 10

/-- The part of a text between two offsets. There is none when an offset is inside a character or
beyond the text, or when they are in the wrong order. -/
def part? (text : String) (first last : Nat) : Option String := do
  let first ← text.pos? ⟨first⟩
  let last ← text.pos? ⟨last⟩
  (text.slice? first last).map String.Slice.copy

end Text

open Text

/-! ## The table -/

structure LineTable where
  starts : Array Nat
  first : starts[0]? = some 0
  increasing : starts.toList.Pairwise (· < ·)

namespace LineTable

def startsFrom : (offset : Nat) → List UInt8 → List Nat
  | _, [] => []
  | offset, byte :: rest =>
    if byte = lineEnd then (offset + 1) :: startsFrom (offset + 1) rest
    else startsFrom (offset + 1) rest

theorem mem_startsFrom {offset start : Nat} {bytes : List UInt8}
    (member : start ∈ startsFrom offset bytes) : offset < start ∧ start ≤ offset + bytes.length := by
  induction bytes generalizing offset with
  | nil => cases member
  | cons byte rest induction =>
    rw [List.length_cons]
    rw [startsFrom] at member
    split at member
    · rcases List.mem_cons.mp member with rfl | member
      · omega
      · have bounds := induction member
        omega
    · have bounds := induction member
      omega

theorem pairwise_startsFrom (offset : Nat) (bytes : List UInt8) :
    (startsFrom offset bytes).Pairwise (· < ·) := by
  induction bytes generalizing offset with
  | nil => exact .nil
  | cons byte rest induction =>
    rw [startsFrom]
    split
    · exact .cons (fun _ member => (mem_startsFrom member).1) (induction (offset + 1))
    · exact induction (offset + 1)

def ofText (text : String) : LineTable where
  starts := (0 :: startsFrom 0 (bytes text)).toArray
  first := rfl
  increasing := .cons (fun _ member => (mem_startsFrom member).1) (pairwise_startsFrom 0 _)

example : (ofText "ab\n\né\n").starts = #[0, 3, 4, 7] := by decide

def line? (table : LineTable) (offset : Nat) : Option Nat :=
  match placeAmong table.starts offset with
  | .hit line => some line
  | .miss 0 => none
  | .miss (line + 1) => some line

/-- The position of a byte offset in the text of the table; offsets past the end mean the end. The
column counts characters, or bytes inside a character. -/
def locate? (table : LineTable) (text : String) (offset : Nat) : Option Location := do
  let offset := min offset text.utf8ByteSize
  let line ← table.line? offset
  let start ← table.starts[line]?
  let distance ←
    match part? text start offset with
    | some part => some part.length
    | none => if start ≤ offset then some (offset - start) else none
  return ⟨offset, line + 1, distance + 1⟩

example : (ofText "ab\nc").locate? "ab\nc" 4 = some ⟨4, 2, 2⟩ := by decide +kernel
example : (ofText "aé").locate? "aé" 2 = some ⟨2, 1, 3⟩ := by decide +kernel

end LineTable

end ScopedStyles
