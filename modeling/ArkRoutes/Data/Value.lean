namespace ArkRoutes.Data

inductive Sign where
  | plus
  | minus
deriving DecidableEq

inductive Magnitude where
  | infinity
  | notANumber
  | hex (n : Nat)
  | whole (n : Nat)
  /-- `digits · 10 ^ exponent` -/
  | decimal (digits : Nat) (exponent : Int)
deriving DecidableEq

structure Numeral where
  sign : Option Sign
  magnitude : Magnitude
deriving DecidableEq

namespace Numeral

/-- The nearest double, when it is finite. Magnitudes far outside the range of doubles are settled
by their length alone. -/
def nearest? (digits : Nat) (exponent : Int) : Option Float :=
  let size : Int := (Nat.toDigits 10 digits).length + exponent
  if digits = 0 || size < -330 then some 0
  else if 310 < size then none
  else
    let x := match exponent with
      | .ofNat e => Float.ofScientific digits false e
      | .negSucc e => Float.ofScientific digits true (e + 1)
    if x.isInf then none else some x

def isFinite : Magnitude → Bool
  | .whole n => (nearest? n 0).isSome
  | .decimal d e => (nearest? d e).isSome
  | _ => true

/-- A number nobody asked for still has to be one: whole numbers fit 64 bits with their sign, hex
numbers 32 bits without one, and only minus may stand before the symbolic numbers. -/
def isSound (x : Numeral) : Bool :=
  match x.magnitude with
  | .infinity | .notANumber => x.sign != some .plus
  | .hex n => x.sign.isNone && n < UInt32.size
  | .whole n => if x.sign = some .minus then n ≤ UInt64.size / 2 else n < UInt64.size / 2
  | m@(.decimal _ _) => isFinite m

/-- A count takes any number as a double: fractions are cut off, negative ones and the undefined
one count as 0, and the largest count is 2 ^ 64 - 1. -/
def count? (x : Numeral) : Option Nat :=
  match x.magnitude with
  | .infinity =>
    match x.sign with
    | none => some (UInt64.size - 1)
    | some .minus => some 0
    | some .plus => none
  | .notANumber => if x.sign = some .plus then none else some 0
  | .hex n => if x.isSound then some n else none
  | .whole n => signed (nearest? n 0)
  | .decimal d e => signed (nearest? d e)
where
  signed (y : Option Float) : Option Nat :=
    y.map fun y => if x.sign = some .minus then 0 else y.toUInt64.toNat

end Numeral

inductive Value where
  | null
  | bool (value : Bool)
  | number (value : Numeral)
  | string (value : String)
  | array (items : List Value)
  | object (fields : List (String × Value))

namespace Value

def text? : Value → Option String
  | string s => some s
  | _ => none

def flag? : Value → Option Bool
  | bool b => some b
  | _ => none

def texts? : Value → Option (List String)
  | array items => items.mapM text?
  | _ => none

def count? : Value → Option Nat
  | number x => x.count?
  | _ => none

def optionalText? : Value → Option (Option String)
  | null => some none
  | string s => some (some s)
  | _ => none

mutual

def isSound : Value → Bool
  | number x => x.isSound
  | array items => areSound items
  | object fields => fieldsAreSound fields
  | _ => true

def areSound : List Value → Bool
  | [] => true
  | v :: rest => isSound v && areSound rest

def fieldsAreSound : List (String × Value) → Bool
  | [] => true
  | (_, v) :: rest => isSound v && fieldsAreSound rest

end

end Value

end ArkRoutes.Data
