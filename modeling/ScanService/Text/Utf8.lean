/-! UTF-8. Reading is total: each longest start of a character that cannot be completed, or byte
that starts none, reads as one U+FFFD. -/
namespace ScanService.Text.Utf8

def encode (cs : List Char) : List UInt8 := (String.ofList cs).toUTF8.toList

/-- How a sequence goes on after its first byte: the bounds of the second byte, and how many more
bytes follow it. A first byte that starts no character gives `none`. -/
def continuation (b : Nat) : Option (Nat × Nat × Nat) :=
  if 0xC2 ≤ b ∧ b ≤ 0xDF then some (0x80,0xBF,0)
  else if b = 0xE0 then some (0xA0,0xBF,1)
  else if b = 0xED then some (0x80,0x9F,1)
  else if 0xE1 ≤ b ∧ b ≤ 0xEF then some (0x80,0xBF,1)
  else if b = 0xF0 then some (0x90,0xBF,2)
  else if 0xF1 ≤ b ∧ b ≤ 0xF3 then some (0x80,0xBF,2)
  else if b = 0xF4 then some (0x80,0x8F,2)
  else none

def leadBits (b : Nat) : Nat := if b < 0xE0 then b % 32 else if b < 0xF0 then b % 16 else b % 8

/-- Reads bytes. `pending` is the character begun: its bits so far, the bounds of the next byte and
the number of bytes after that one. -/
def decodeFrom : Option (Nat × Nat × Nat × Nat) → List UInt8 → List Char
  | none, [] => []
  | some _, [] => [Char.ofNat 0xFFFD]
  | none, b :: r =>
    if b.toNat < 0x80 then Char.ofNat b.toNat :: decodeFrom none r
    else match continuation b.toNat with
      | none => Char.ofNat 0xFFFD :: decodeFrom none r
      | some (lo,hi,more) => decodeFrom (some (leadBits b.toNat,lo,hi,more)) r
  | some (acc,lo,hi,more), b :: r =>
    if lo ≤ b.toNat ∧ b.toNat ≤ hi then
      let acc := acc * 64 + b.toNat % 64
      match more with
      | 0 => Char.ofNat acc :: decodeFrom none r
      | m + 1 => decodeFrom (some (acc,0x80,0xBF,m)) r
    else if b.toNat < 0x80 then Char.ofNat 0xFFFD :: Char.ofNat b.toNat :: decodeFrom none r
    else match continuation b.toNat with
      | none => Char.ofNat 0xFFFD :: Char.ofNat 0xFFFD :: decodeFrom none r
      | some (lo,hi,more) =>
        Char.ofNat 0xFFFD :: decodeFrom (some (leadBits b.toNat,lo,hi,more)) r

def decode (bs : List UInt8) : List Char := decodeFrom none bs

end ScanService.Text.Utf8
