/-!
Bytes in base 64, with the alphabet for addresses and without padding.
-/

namespace ScopedStyles.Base64

def alphabet : List Char :=
  "ABCDEFGHIJKLMNOPQRSTUVWXYZabcdefghijklmnopqrstuvwxyz0123456789-_".toList

def character (value : Nat) : Char :=
  alphabet.getD (value % 64) 'A'

/-- Three bytes become four characters; one or two bytes at the end become two or three. -/
def encode : List UInt8 → List Char
  | first :: second :: third :: rest =>
    let value := first.toNat * 65536 + second.toNat * 256 + third.toNat
    character (value / 262144) :: character (value / 4096) :: character (value / 64) ::
      character value :: encode rest
  | [first, second] =>
    let value := first.toNat * 65536 + second.toNat * 256
    [character (value / 262144), character (value / 4096), character (value / 64)]
  | [first] =>
    let value := first.toNat * 65536
    [character (value / 262144), character (value / 4096)]
  | [] => []

example : String.ofList (encode [77, 97, 110, 255]) = "TWFu_w" := by decide +kernel

end ScopedStyles.Base64
