namespace ArkRoutes.Text.Utf8

def encode (s : String) : List UInt8 := s.toByteArray.data.toList

/-- Where the well-formed part ends, and how many bytes cannot begin or go on with a character there; there is no
width when the bytes stop inside a character. -/
structure Fault where
  index : Nat
  width : Option Nat
deriving DecidableEq

def Fault.message (f : Fault) : String :=
  match f.width with
  | some n => "invalid utf-8 sequence of " ++ toString n ++ " bytes from index " ++ toString f.index
  | none => "incomplete utf-8 byte sequence from index " ++ toString f.index

def isTail (b : UInt8) : Bool := 0x80 ≤ b && b ≤ 0xBF

def isSecond (a b : UInt8) : Bool :=
  if a == 0xE0 then 0xA0 ≤ b && b ≤ 0xBF
  else if a == 0xED then 0x80 ≤ b && b ≤ 0x9F
  else if a == 0xF0 then 0x90 ≤ b && b ≤ 0xBF
  else if a == 0xF4 then 0x80 ≤ b && b ≤ 0x8F
  else isTail b

def low (b : UInt8) : Nat := b.toNat % 64

/-- One character and the number of bytes it takes, or the width of a fault. -/
def first (a : UInt8) (rest : List UInt8) : Except (Option Nat) (Char × Nat) :=
  if a < 0x80 then .ok (Char.ofNat a.toNat, 1)
  else if a < 0xC2 || 0xF4 < a then .error (some 1)
  else match rest with
    | [] => .error none
    | b :: rest =>
      if !isSecond a b then .error (some 1)
      else if a < 0xE0 then .ok (Char.ofNat (a.toNat % 32 * 64 + low b), 2)
      else match rest with
        | [] => .error none
        | c :: rest =>
          if !isTail c then .error (some 2)
          else if a < 0xF0 then .ok (Char.ofNat ((a.toNat % 16 * 64 + low b) * 64 + low c), 3)
          else match rest with
            | [] => .error none
            | d :: _ =>
              if !isTail d then .error (some 3)
              else .ok (Char.ofNat (((a.toNat % 8 * 64 + low b) * 64 + low c) * 64 + low d), 4)

/-- `skip` bytes belong to a character already read. -/
def decodeFrom (index skip : Nat) : List UInt8 → Except Fault (List Char)
  | [] => .ok []
  | a :: rest =>
    match skip with
    | skip + 1 => decodeFrom (index + 1) skip rest
    | 0 =>
      match first a rest with
      | .ok (c, n) => (decodeFrom (index + 1) (n - 1) rest).map (c :: ·)
      | .error width => .error ⟨index, width⟩

def decode (bytes : List UInt8) : Except Fault String :=
  (decodeFrom 0 0 bytes).map String.ofList

/-- Every faulty stretch becomes one replacement character. -/
def decodeLossyFrom (skip : Nat) : List UInt8 → List Char
  | [] => []
  | a :: rest =>
    match skip with
    | skip + 1 => decodeLossyFrom skip rest
    | 0 =>
      match first a rest with
      | .ok (c, n) => c :: decodeLossyFrom (n - 1) rest
      | .error (some n) => '\uFFFD' :: decodeLossyFrom (n - 1) rest
      | .error none => ['\uFFFD']

def decodeLossy (bytes : List UInt8) : String := String.ofList (decodeLossyFrom 0 bytes)

end ArkRoutes.Text.Utf8
