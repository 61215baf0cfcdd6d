import GameBundle.Json.Basic
import GameBundle.Json.Raw
import GameBundle.Ordered

set_option autoImplicit false

/-! # From JSON text to values

A number is an integer when it is spelled as one and fits 64 bits. Any other is a double: its
leading digits, as many as fit 64 bits, are taken as an integer and multiplied or divided by a power
of ten. The result may miss the nearest double by a few units in the last place, and a number beyond
the range of doubles is no value at all. -/

namespace GameBundle.Json

/-! ## Numbers -/

/-- The leading digits of a number and the power of ten they are to be multiplied by. -/
structure Scaled where
  significand : Nat
  exponent : Int
  deriving Repr

/-- Take whole digits as long as the significand fits 64 bits; each further one is a power of
    ten. -/
def Scaled.whole (s : Scaled) : List Nat → Scaled
  | [] => s
  | d :: rest =>
    if s.significand * 10 + d < UInt64.size then whole ⟨s.significand * 10 + d, s.exponent⟩ rest
    else ⟨s.significand, s.exponent + rest.length + 1⟩

/-- Take digits behind the point as long as the significand fits 64 bits; further ones are lost. -/
def Scaled.fraction (s : Scaled) : List Nat → Scaled
  | [] => s
  | d :: rest =>
    if s.significand * 10 + d < UInt64.size then
      fraction ⟨s.significand * 10 + d, s.exponent - 1⟩ rest
    else s

/-- The double nearest to a power of ten. -/
def powerOfTen (n : Nat) : Float := Decimal.toFloat ⟨1, n⟩

/-- Multiply or divide by a power of ten, in steps of `10 ^ 308` if it is smaller than any double.
    A significand of 64 bits is zero after two steps, so few of them suffice. -/
def scale? (x : Float) (exponent : Int) : Nat → Option Float
  | 0 => some x
  | steps + 1 =>
    if exponent.natAbs ≤ 308 then
      if 0 ≤ exponent then
        let scaled := x * powerOfTen exponent.natAbs
        if Binary64.isFinite scaled then some scaled else none
      else some (x / powerOfTen exponent.natAbs)
    else if x == 0 then some x
    else if 0 ≤ exponent then none
    else scale? (x / powerOfTen 308) (exponent + 308) steps

/-- More steps than any significand takes to become zero. -/
def scaleSteps : Nat := 4

/-- The exponent behind the mark, between the limits of a signed 32-bit integer; none if its digits
    alone are beyond them. -/
def smallExponent? (digits : List Nat) : Option Nat :=
  let exponent := Decimal.ofDigits digits
  if exponent < 0x80000000 then some exponent else none

/-- The magnitude of a number as a double. -/
def magnitude? (s : Scaled) (exponent : Option (Bool × List Nat)) : Option Float :=
  let x := Binary64.nearest s.significand 0
  match exponent with
  | none => scale? x s.exponent scaleSteps
  | some (negative, digits) =>
    match smallExponent? digits with
    | some e => scale? x (s.exponent + Binary64.signed negative e) scaleSteps
    | none => if s.significand = 0 ∨ negative then some (Binary64.nearest 0 0) else none

/-- The value of a number. -/
def Numeral.value? (n : Numeral) : Option Number :=
  let whole := Decimal.ofDigits n.whole
  if n.fraction = none ∧ n.exponent = none ∧
      if n.negative then 0 < whole ∧ whole ≤ 0x8000000000000000 else whole < UInt64.size then
    some (.integer (Binary64.signed n.negative whole))
  else
    let s := ((Scaled.mk 0 0).whole n.whole).fraction (n.fraction.getD [])
    (magnitude? s n.exponent).map fun x => .real (if n.negative then -x else x)

/-! ## Values -/

mutual

/-- The value of a tree that may hold at most `depth - 1` levels of containers. Of two fields with
    one key the later value stays, at the place of the earlier. -/
def Raw.value? (depth : Nat) : Raw → Option Json
  | .null => some .null
  | .bool value => some (.bool value)
  | .number n => n.value?.map .number
  | .string text => text.map .string
  | .array items => if depth ≤ 1 then none else (values? (depth - 1) items).map .array
  | .object fields =>
    if depth ≤ 1 then none
    else (fieldValues? (depth - 1) fields).map fun fields => .object (Ordered.ofList fields).entries

/-- The values of the items of an array. -/
def Raw.values? (depth : Nat) : List Raw → Option (List Json)
  | [] => some []
  | item :: rest => do return (← Raw.value? depth item) :: (← Raw.values? depth rest)

/-- The keys and values of the fields of an object, repeated keys included. -/
def Raw.fieldValues? (depth : Nat) : List (Option String × Raw) → Option (List (String × Json))
  | [] => some []
  | (key, value) :: rest => do
    let key ← key
    return (key, ← Raw.value? depth value) :: (← Raw.fieldValues? depth rest)

end

end GameBundle.Json
