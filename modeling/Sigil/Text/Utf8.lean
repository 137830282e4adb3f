/-!
# UTF-8

Decoding of bytes to a text. A fault tells where decoding stopped and how many bytes the broken
sequence has; a sequence that the end of the input cuts short has no length.
-/

namespace Sigil.Text.Utf8

/-- Where decoding stopped: the offset of the broken sequence, and its length unless the input
ends inside it. -/
structure Fault where
  index : Nat
  length : Option Nat
  deriving DecidableEq, Repr

def Fault.message (f : Fault) : String :=
  match f.length with
  | some n => s!"invalid utf-8 sequence of {n} bytes from index {f.index}"
  | none => s!"incomplete utf-8 byte sequence from index {f.index}"

/-- A continuation byte. -/
def isTail (b : UInt8) : Bool := 0x80 ≤ b && b ≤ 0xBF

/-- The second bytes allowed after a first byte of three. -/
def isSecondOf3 (lead b : UInt8) : Bool :=
  if lead == 0xE0 then 0xA0 ≤ b && b ≤ 0xBF
  else if lead == 0xED then 0x80 ≤ b && b ≤ 0x9F
  else isTail b

/-- The second bytes allowed after a first byte of four. -/
def isSecondOf4 (lead b : UInt8) : Bool :=
  if lead == 0xF0 then 0x90 ≤ b && b ≤ 0xBF
  else if lead == 0xF4 then 0x80 ≤ b && b ≤ 0x8F
  else isTail b

def low6 (b : UInt8) : Nat := b.toNat % 64

def char2 (a b : UInt8) : Char := Char.ofNat (a.toNat % 32 * 64 + low6 b)

def char3 (a b c : UInt8) : Char := Char.ofNat ((a.toNat % 16 * 64 + low6 b) * 64 + low6 c)

def char4 (a b c d : UInt8) : Char :=
  Char.ofNat (((a.toNat % 8 * 64 + low6 b) * 64 + low6 c) * 64 + low6 d)

/-- Decodes the bytes that stand at offset `index` of the whole input. -/
def decodeFrom (index : Nat) : List UInt8 → Except Fault (List Char)
  | [] => .ok []
  | a :: r =>
    if a < 0x80 then (decodeFrom (index + 1) r).map (Char.ofNat a.toNat :: ·)
    else if 0xC2 ≤ a && a ≤ 0xDF then
      match r with
      | [] => .error ⟨index, none⟩
      | b :: r =>
        if isTail b then (decodeFrom (index + 2) r).map (char2 a b :: ·)
        else .error ⟨index, some 1⟩
    else if 0xE0 ≤ a && a ≤ 0xEF then
      match r with
      | [] => .error ⟨index, none⟩
      | b :: r =>
        if !isSecondOf3 a b then .error ⟨index, some 1⟩
        else
          match r with
          | [] => .error ⟨index, none⟩
          | c :: r =>
            if isTail c then (decodeFrom (index + 3) r).map (char3 a b c :: ·)
            else .error ⟨index, some 2⟩
    else if 0xF0 ≤ a && a ≤ 0xF4 then
      match r with
      | [] => .error ⟨index, none⟩
      | b :: r =>
        if !isSecondOf4 a b then .error ⟨index, some 1⟩
        else
          match r with
          | [] => .error ⟨index, none⟩
          | c :: r =>
            if !isTail c then .error ⟨index, some 2⟩
            else
              match r with
              | [] => .error ⟨index, none⟩
              | d :: r =>
                if isTail d then (decodeFrom (index + 4) r).map (char4 a b c d :: ·)
                else .error ⟨index, some 3⟩
    else .error ⟨index, some 1⟩

def decode (bytes : List UInt8) : Except Fault String := (decodeFrom 0 bytes).map String.ofList

def encode (text : String) : List UInt8 := text.toUTF8.toList

example : (decodeFrom 0 [0x61, 0xC3, 0xA9]).toOption = some ['a', 'é'] := by decide

example : (decodeFrom 0 [0x61, 0xED, 0xA0, 0x80]).toOption = none := by decide

end Sigil.Text.Utf8
