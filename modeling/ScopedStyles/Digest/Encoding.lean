import ScopedStyles.Digest.Xxh3
import ScopedStyles.Digest.Base64
import ScopedStyles.Digest.Numeral

/-!
The ways to write a digest as text.
-/

namespace ScopedStyles

inductive Encoding where
  | hex
  | base64
  | base36
deriving DecidableEq, Repr

namespace Encoding

def ofName? (name : String) : Option Encoding :=
  if name = "hex" then some .hex
  else if name = "base64" then some .base64
  else if name = "base36" then some .base36
  else none

def encode (encoding : Encoding) (digest : Digest) : List Char :=
  match encoding with
  | .hex => Numeral.hex 32 digest.toNat
  | .base64 => Base64.encode digest.bytes
  | .base36 => Numeral.base36 digest.toNat

def encodeTo (encoding : Encoding) (length : Option Nat) (digest : Digest) : List Char :=
  match length with
  | some length => (encoding.encode digest).take length
  | none => encoding.encode digest

end Encoding

end ScopedStyles
