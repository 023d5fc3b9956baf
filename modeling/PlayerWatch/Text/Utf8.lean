/-!
# Lossy decoding of UTF-8

Lines arrive as octets. `decodeLossy` reads them as UTF-8 and puts one replacement character for
each maximal broken part: the octets of a sequence that began well count as one, and the octet that
breaks it starts afresh.
-/

namespace PlayerWatch.Text

/-- Stands for a part of the input that is no UTF-8. -/
def replacement : Char := Char.ofNat 0xFFFD

/-- A sequence that has begun: how many octets it still owes, the closed range for the next one,
and the bits gathered so far. -/
structure Partial where
  owed : Nat
  low : Nat
  high : Nat
  value : Nat

/-- What an octet means between characters. -/
inductive Lead where
  | scalar (c : Char)
  | begins (p : Partial)
  | broken

/-- The meaning of an octet between characters (table 3-7 of the Unicode standard). -/
def lead (b : Nat) : Lead :=
  if b ≤ 0x7F then .scalar (Char.ofNat b)
  else if 0xC2 ≤ b ∧ b ≤ 0xDF then .begins ⟨1, 0x80, 0xBF, b % 32⟩
  else if b = 0xE0 then .begins ⟨2, 0xA0, 0xBF, b % 16⟩
  else if b = 0xED then .begins ⟨2, 0x80, 0x9F, b % 16⟩
  else if 0xE1 ≤ b ∧ b ≤ 0xEF then .begins ⟨2, 0x80, 0xBF, b % 16⟩
  else if b = 0xF0 then .begins ⟨3, 0x90, 0xBF, b % 8⟩
  else if 0xF1 ≤ b ∧ b ≤ 0xF3 then .begins ⟨3, 0x80, 0xBF, b % 8⟩
  else if b = 0xF4 then .begins ⟨3, 0x80, 0x8F, b % 8⟩
  else .broken

/-- Decodes octets, possibly in the middle of a sequence that has begun. -/
def decodeFrom : Option Partial → List UInt8 → List Char
  | none, [] => []
  | some _, [] => [replacement]
  | none, b :: bs =>
    match lead b.toNat with
    | .scalar c => c :: decodeFrom none bs
    | .begins p => decodeFrom (some p) bs
    | .broken => replacement :: decodeFrom none bs
  | some p, b :: bs =>
    if p.low ≤ b.toNat ∧ b.toNat ≤ p.high then
      let value := p.value * 64 + b.toNat % 64
      if p.owed ≤ 1 then Char.ofNat value :: decodeFrom none bs
      else decodeFrom (some ⟨p.owed - 1, 0x80, 0xBF, value⟩) bs
    else
      match lead b.toNat with
      | .scalar c => replacement :: c :: decodeFrom none bs
      | .begins q => replacement :: decodeFrom (some q) bs
      | .broken => replacement :: replacement :: decodeFrom none bs

/-- Reads octets as UTF-8, with one replacement character for each maximal broken part. -/
def decodeLossy (bytes : List UInt8) : List Char := decodeFrom none bytes

def encode (s : String) : List UInt8 := s.toUTF8.toList

/-- Reads octets as UTF-8 if they are nothing else. -/
def decode? (bytes : List UInt8) : Option String := String.fromUTF8? ⟨bytes.toArray⟩

def octets (cs : List Char) : Nat := cs.foldl (fun n c => n + c.utf8Size) 0

end PlayerWatch.Text
