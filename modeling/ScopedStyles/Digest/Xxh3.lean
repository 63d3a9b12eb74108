/-!
The 128-bit XXH3 hash with seed zero. Short inputs are hashed directly, longer ones in overlapping
pieces of 32 bytes, and inputs of more than 240 bytes in stripes of 64 bytes that eight lanes
accumulate.
-/

namespace ScopedStyles

structure Digest where
  high : UInt64
  low : UInt64
deriving DecidableEq, Repr

namespace Digest

def toNat (digest : Digest) : Nat :=
  (digest.high.toNat <<< 64) + digest.low.toNat

def bytes (digest : Digest) : List UInt8 :=
  (List.range 16).map fun index => UInt8.ofNat (digest.toNat >>> (8 * (15 - index)))

end Digest

namespace Xxh3

/-! ## Constants -/

def prime32A : UInt64 := 0x9E3779B1
def prime32B : UInt64 := 0x85EBCA77
def prime32C : UInt64 := 0xC2B2AE3D
def prime64A : UInt64 := 0x9E3779B185EBCA87
def prime64B : UInt64 := 0xC2B2AE3D27D4EB4F
def prime64C : UInt64 := 0x165667B19E3779F9
def prime64D : UInt64 := 0x85EBCA77C2B2AE63
def prime64E : UInt64 := 0x27D4EB2F165667C5
def mixerA : UInt64 := 0x165667919E3779F9
def mixerB : UInt64 := 0x9FB21C651E98DF25

def secret : ByteArray :=
  ⟨#[0xb8, 0xfe, 0x6c, 0x39, 0x23, 0xa4, 0x4b, 0xbe, 0x7c, 0x01, 0x81, 0x2c, 0xf7, 0x21, 0xad, 0x1c,
     0xde, 0xd4, 0x6d, 0xe9, 0x83, 0x90, 0x97, 0xdb, 0x72, 0x40, 0xa4, 0xa4, 0xb7, 0xb3, 0x67, 0x1f,
     0xcb, 0x79, 0xe6, 0x4e, 0xcc, 0xc0, 0xe5, 0x78, 0x82, 0x5a, 0xd0, 0x7d, 0xcc, 0xff, 0x72, 0x21,
     0xb8, 0x08, 0x46, 0x74, 0xf7, 0x43, 0x24, 0x8e, 0xe0, 0x35, 0x90, 0xe6, 0x81, 0x3a, 0x26, 0x4c,
     0x3c, 0x28, 0x52, 0xbb, 0x91, 0xc3, 0x00, 0xcb, 0x88, 0xd0, 0x65, 0x8b, 0x1b, 0x53, 0x2e, 0xa3,
     0x71, 0x64, 0x48, 0x97, 0xa2, 0x0d, 0xf9, 0x4e, 0x38, 0x19, 0xef, 0x46, 0xa9, 0xde, 0xac, 0xd8,
     0xa8, 0xfa, 0x76, 0x3f, 0xe3, 0x9c, 0x34, 0x3f, 0xf9, 0xdc, 0xbb, 0xc7, 0xc7, 0x0b, 0x4f, 0x1d,
     0x8a, 0x51, 0xe0, 0x4b, 0xcd, 0xb4, 0x59, 0x31, 0xc8, 0x9f, 0x7e, 0xc9, 0xd9, 0x78, 0x73, 0x64,
     0xea, 0xc5, 0xac, 0x83, 0x34, 0xd3, 0xeb, 0xc3, 0xc5, 0x81, 0xa0, 0xff, 0xfa, 0x13, 0x63, 0xeb,
     0x17, 0x0d, 0xdd, 0x51, 0xb7, 0xf0, 0xda, 0x49, 0xd3, 0x16, 0x55, 0x26, 0x29, 0xd4, 0x68, 0x9e,
     0x2b, 0x16, 0xbe, 0x58, 0x7d, 0x47, 0xa1, 0xfc, 0x8f, 0xf8, 0xb8, 0xd1, 0x7a, 0xd0, 0x31, 0xce,
     0x45, 0xcb, 0x3a, 0x8f, 0x95, 0x16, 0x04, 0x28, 0xaf, 0xd7, 0xfb, 0xca, 0xbb, 0x4b, 0x40, 0x7e]⟩

/-! ## Words -/

/-- The byte at an index; bytes outside the input are zero. -/
def byte (input : ByteArray) (index : Nat) : UInt64 :=
  if inside : index < input.size then (input[index]).toUInt64 else 0

def word32 (input : ByteArray) (index : Nat) : UInt64 :=
  byte input index ||| (byte input (index + 1) <<< 8) ||| (byte input (index + 2) <<< 16) |||
    (byte input (index + 3) <<< 24)

def word64 (input : ByteArray) (index : Nat) : UInt64 :=
  word32 input index ||| (word32 input (index + 4) <<< 32)

def lowHalf (word : UInt64) : UInt64 := word &&& 0xFFFFFFFF

def octet (word position : UInt64) : UInt64 :=
  let moved := word >>> position
  moved &&& 0xFF

def swap32 (word : UInt64) : UInt64 :=
  (octet word 0 <<< 24) ||| (octet word 8 <<< 16) ||| (octet word 16 <<< 8) ||| octet word 24

def swap64 (word : UInt64) : UInt64 :=
  (swap32 (lowHalf word) <<< 32) ||| swap32 (word >>> 32)

def multiply (left right : UInt64) : Digest :=
  let product := left.toNat * right.toNat
  ⟨UInt64.ofNat (product >>> 64), UInt64.ofNat product⟩

def fold (left right : UInt64) : UInt64 :=
  let product := multiply left right
  product.high ^^^ product.low

def xorShift (word shift : UInt64) : UInt64 := word ^^^ (word >>> shift)

def avalanche (word : UInt64) : UInt64 :=
  xorShift (xorShift word 37 * mixerA) 32

/-- The last mixing step of the shortest lengths. -/
def avalancheShort (word : UInt64) : UInt64 :=
  xorShift (xorShift (xorShift word 33 * prime64B) 29 * prime64C) 32

def keyPair (index : Nat) : UInt64 :=
  word64 secret index ^^^ word64 secret (index + 8)

/-! ## At most sixteen bytes -/

def ofEmpty : Digest :=
  ⟨avalancheShort (keyPair 80), avalancheShort (keyPair 64)⟩

def ofUpTo3 (input : ByteArray) : Digest :=
  let size := input.size
  let low := (byte input 0 <<< 16) ||| (byte input (size / 2) <<< 24) ||| byte input (size - 1) |||
    (UInt64.ofNat size <<< 8)
  let swapped := swap32 low
  let high := lowHalf (swapped <<< 13) ||| (swapped >>> 19)
  ⟨avalancheShort (high ^^^ word32 secret 8 ^^^ word32 secret 12),
    avalancheShort (low ^^^ word32 secret 0 ^^^ word32 secret 4)⟩

def ofUpTo8 (input : ByteArray) : Digest :=
  let size := input.size
  let whole := word32 input 0 + (word32 input (size - 4) <<< 32)
  let product := multiply (whole ^^^ keyPair 16) (prime64A + UInt64.ofNat (4 * size))
  let high := product.high + (product.low <<< 1)
  let low := product.low ^^^ (high >>> 3)
  ⟨avalanche high, xorShift (xorShift low 35 * mixerB) 28⟩

def ofUpTo16 (input : ByteArray) : Digest :=
  let size := input.size
  let first := word64 input 0
  let last := word64 input (size - 8)
  let product := multiply (first ^^^ last ^^^ keyPair 32) prime64A
  let low := product.low + (UInt64.ofNat (size - 1) <<< 54)
  let keyed := last ^^^ keyPair 48
  let high := product.high + keyed + lowHalf keyed * (prime32B - 1)
  let mixed := low ^^^ swap64 high
  let second := multiply mixed prime64B
  ⟨avalanche (second.high + high * prime64B), avalanche second.low⟩

/-! ## At most 240 bytes -/

def mix16 (input : ByteArray) (index key : Nat) : UInt64 :=
  fold (word64 input index ^^^ word64 secret key)
    (word64 input (index + 8) ^^^ word64 secret (key + 8))

def mix32 (input : ByteArray) (running : Digest) (left right key : Nat) : Digest :=
  ⟨(running.high + mix16 input right (key + 16)) ^^^ (word64 input left + word64 input (left + 8)),
    (running.low + mix16 input left key) ^^^ (word64 input right + word64 input (right + 8))⟩

def finish (running : Digest) (size : Nat) : Digest :=
  let low := running.low + running.high
  let high := running.low * prime64A + running.high * prime64D + UInt64.ofNat size * prime64B
  ⟨0 - avalanche high, avalanche low⟩

/-- Pieces are taken in pairs from both ends, innermost first. -/
def ofUpTo128 (input : ByteArray) : Digest :=
  let size := input.size
  let pairs := (List.range ((size - 1) / 32 + 1)).reverse
  let running := pairs.foldl
    (fun running index =>
      mix32 input running (16 * index) (size - 16 * (index + 1)) (32 * index))
    ⟨0, UInt64.ofNat size * prime64A⟩
  finish running size

def ofUpTo240 (input : ByteArray) : Digest :=
  let size := input.size
  let early := (List.range 4).foldl
    (fun running index => mix32 input running (32 * index) (32 * index + 16) (32 * index))
    ⟨0, UInt64.ofNat size * prime64A⟩
  let middle : Digest := ⟨avalanche early.high, avalanche early.low⟩
  let late := (List.range (size / 32 - 4)).foldl
    (fun running index =>
      mix32 input running (32 * index + 128) (32 * index + 144) (32 * index + 3))
    middle
  finish (mix32 input late (size - 16) (size - 32) 103) size

/-! ## More than 240 bytes -/

def swapPairs : List UInt64 → List UInt64
  | first :: second :: rest => second :: first :: swapPairs rest
  | rest => rest

def initialLanes : List UInt64 :=
  [prime32C, prime64A, prime64B, prime64C, prime64D, prime32B, prime64E, prime32A]

def stripe (input : ByteArray) (index : Nat) : List UInt64 :=
  (List.range 8).map fun lane => word64 input (index + 8 * lane)

/-- Add a stripe to the lanes: its words to the neighbouring lanes, and the product of the halves
of each keyed word to its own. -/
def accumulate (input : ByteArray) (lanes : List UInt64) (index key : Nat) : List UInt64 :=
  let words := stripe input index
  let products := List.zipWith
    (fun word key =>
      let keyed := word ^^^ key
      lowHalf keyed * (keyed >>> 32))
    words (stripe secret key)
  List.zipWith (· + ·) (List.zipWith (· + ·) lanes (swapPairs words)) products

def accumulateMany (input : ByteArray) (lanes : List UInt64) (index count : Nat) : List UInt64 :=
  (List.range count).foldl
    (fun lanes number => accumulate input lanes (index + 64 * number) (8 * number)) lanes

def scramble (lanes : List UInt64) : List UInt64 :=
  List.zipWith (fun lane key => (xorShift lane 47 ^^^ key) * prime32A) lanes (stripe secret 128)

def mergePairs (start : UInt64) (key : Nat) : List UInt64 → UInt64
  | first :: second :: rest =>
    mergePairs (start + fold (first ^^^ word64 secret key) (second ^^^ word64 secret (key + 8)))
      (key + 16) rest
  | _ => avalanche start

/-- Blocks of sixteen stripes, the stripes of the last block, and the last 64 bytes. -/
def ofLong (input : ByteArray) : Digest :=
  let size := input.size
  let blocks := (size - 1) / 1024
  let whole := (List.range blocks).foldl
    (fun lanes block => scramble (accumulateMany input lanes (1024 * block) 16)) initialLanes
  let rest := accumulateMany input whole (1024 * blocks) ((size - 1 - 1024 * blocks) / 64)
  let lanes := accumulate input rest (size - 64) 121
  ⟨mergePairs (~~~(UInt64.ofNat size * prime64B)) 117 lanes,
    mergePairs (UInt64.ofNat size * prime64A) 11 lanes⟩

/-! ## All lengths -/

def hash (input : ByteArray) : Digest :=
  let size := input.size
  if size = 0 then ofEmpty
  else if size ≤ 3 then ofUpTo3 input
  else if size ≤ 8 then ofUpTo8 input
  else if size ≤ 16 then ofUpTo16 input
  else if size ≤ 128 then ofUpTo128 input
  else if size ≤ 240 then ofUpTo240 input
  else ofLong input

example : (hash .empty).toNat = 0x99aa06d3014798d86001c324468d497f := by decide +kernel

end Xxh3

end ScopedStyles
