/-!
# Decoding UTF-8 with losses

Bytes as text where every longest piece that could have started a character, but does not make one,
becomes the replacement character.
-/

namespace ImportAtlas.Text

def replacement : Char := '\ufffd'

/-- The bits that a first byte gives, the range of the second byte, and how many bytes follow. -/
structure Lead where
  bits : Nat
  low : Nat
  high : Nat
  more : Nat
  deriving DecidableEq, Repr

def lead? (b : Nat) : Option Lead :=
  if b < 0xc2 then none
  else if b < 0xe0 then some ⟨b - 0xc0, 0x80, 0xbf, 1⟩
  else if b == 0xe0 then some ⟨0, 0xa0, 0xbf, 2⟩
  else if b == 0xed then some ⟨0xd, 0x80, 0x9f, 2⟩
  else if b < 0xf0 then some ⟨b - 0xe0, 0x80, 0xbf, 2⟩
  else if b == 0xf0 then some ⟨0, 0x90, 0xbf, 3⟩
  else if b < 0xf4 then some ⟨b - 0xf0, 0x80, 0xbf, 3⟩
  else if b == 0xf4 then some ⟨4, 0x80, 0x8f, 3⟩
  else none

/-- The code point gathered so far, and how the next byte has to be. -/
structure Pending where
  value : Nat
  low : Nat
  high : Nat
  more : Nat

/-- Decodes with a character perhaps under way. -/
def decodeFrom : Option Pending → List Nat → List Char
  | none, [] => []
  | some _, [] => [replacement]
  | some p, b :: bs =>
    if p.low ≤ b && b ≤ p.high then
      let value := p.value * 64 + (b - 0x80)
      if p.more ≤ 1 then Char.ofNat value :: decodeFrom none bs
      else decodeFrom (some ⟨value, 0x80, 0xbf, p.more - 1⟩) bs
    else replacement :: start b bs
  | none, b :: bs => start b bs
where
  /-- A byte that starts a character or stands alone. -/
  start (b : Nat) (bs : List Nat) : List Char :=
    if b < 0x80 then Char.ofNat b :: decodeFrom none bs
    else
      match lead? b with
      | some l => decodeFrom (some ⟨l.bits, l.low, l.high, l.more⟩) bs
      | none => replacement :: decodeFrom none bs

def decodeLossy (bytes : List Nat) : String := String.ofList (decodeFrom none bytes)

def bytesOf (s : String) : List Nat := s.toUTF8.toList.map UInt8.toNat

end ImportAtlas.Text
