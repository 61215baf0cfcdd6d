set_option autoImplicit false

/-! # Doubles as exact numbers

Map coordinates, property values and JSON numbers are doubles. Everything this library decides
about a double it decides on the number the double stands for: `decode` takes the bits apart into a
sign, a whole significand and a power of two, and `nearest` goes back from such a number to the
double closest to it, a tie going to the even significand. Rounding to whole numbers and reading of
decimals are exact computations between the two. -/

namespace GameBundle.Binary64

/-! ## Taking a double apart -/

/-- What the bits of a double stand for. -/
inductive Decoded
  | nan
  | infinite (negative : Bool)
  /-- The number `significand * 2 ^ exponent`, or its opposite. -/
  | finite (negative : Bool) (significand : Nat) (exponent : Int)
  deriving Repr, DecidableEq, Inhabited

/-- Split the bits of a double into sign, significand and power of two. -/
def decode (x : Float) : Decoded :=
  let bits := x.toBits.toNat
  let negative := bits >>> 63 == 1
  let power : Nat := (bits >>> 52) % 2048
  let fraction : Nat := bits % (1 <<< 52)
  if power = 2047 then
    if fraction = 0 then .infinite negative else .nan
  else if power = 0 then .finite negative fraction (-1074)
  else .finite negative (fraction + (1 <<< 52)) ((power : Int) - 1075)

/-! ## The nearest double -/

/-- A binary floating-point format: the bits of a significand, the power of two of the smallest
    number, and the code of infinity. -/
structure Format where
  precision : Nat
  lowest : Int
  infinity : Nat
  deriving Repr

/-- Numbers of 64 bits. -/
def double : Format := ⟨53, -1074, 2047 <<< 52⟩

/-- Numbers of 32 bits. -/
def single : Format := ⟨24, -149, 255 <<< 23⟩

/-- `significand / 2 ^ shift` rounded to a whole number, a tie going to the even one. -/
def shiftRounded (significand shift : Nat) : Nat :=
  let quotient := significand >>> shift
  let unit : Nat := 1 <<< shift
  let twice := 2 * (significand % unit)
  if twice < unit then quotient
  else if unit < twice then quotient + 1
  else quotient + quotient % 2

/-- The bits of the positive number of a format that is nearest to `significand * 2 ^ exponent`,
    infinity if it is out of range. Adding the rounded significand to the shifted power lets a carry
    move into the power by itself. -/
def nearestBits (format : Format) (significand : Nat) (exponent : Int) : Nat :=
  if significand = 0 then 0
  else
    let power := max (exponent + significand.log2 + 1 - format.precision) format.lowest
    let rounded :=
      if exponent ≤ power then shiftRounded significand (power - exponent).toNat
      else significand <<< (exponent - power).toNat
    min (((power - format.lowest).toNat <<< (format.precision - 1)) + rounded) format.infinity

/-- The double nearest to `significand * 2 ^ exponent`. -/
def nearest (significand : Nat) (exponent : Int) : Float :=
  Float.ofBits (UInt64.ofNat (nearestBits double significand exponent))

/-- The bits of the 32-bit number nearest to a double. -/
def toSingleBits (x : Float) : UInt32 :=
  let withSign := fun (negative : Bool) (bits : Nat) =>
    UInt32.ofNat ((if negative then 0x80000000 else 0) + bits)
  match decode x with
  | .nan => 0x7fc00000
  | .infinite negative => withSign negative single.infinity
  | .finite negative significand exponent =>
    withSign negative (nearestBits single significand exponent)

/-- The double nearest to `num / den`. A quotient of more than 64 bits followed by one bit that
    tells whether anything was left rounds like the exact quotient. -/
def nearestRatio (num den : Nat) : Float :=
  let shift := 66 + den.log2 - num.log2
  let scaled := num <<< shift
  let quotient := scaled / den
  let rest := if scaled % den = 0 then 0 else 1
  nearest (2 * quotient + rest) (-(shift : Int) - 1)

/-- The double nearest to an integer. -/
def ofInt : Int → Float
  | .ofNat n => nearest n 0
  | .negSucc n => -(nearest (n + 1) 0)

/-! ## Whole numbers -/

/-- What is left of a double when it is cut or rounded to a whole number. -/
inductive Whole
  | nan
  | infinite (negative : Bool)
  | integer (value : Int)
  deriving Repr, DecidableEq, Inhabited

/-- An integer from its sign and magnitude. -/
def signed (negative : Bool) (magnitude : Nat) : Int := if negative then -magnitude else magnitude

/-- Cut towards zero. -/
def trunc (x : Float) : Whole :=
  match decode x with
  | .nan => .nan
  | .infinite negative => .infinite negative
  | .finite negative significand exponent =>
    .integer <| signed negative <|
      if 0 ≤ exponent then significand <<< exponent.toNat
      else significand >>> (-exponent).toNat

/-- Round to the nearest whole number, a tie going away from zero. -/
def round (x : Float) : Whole :=
  match decode x with
  | .nan => .nan
  | .infinite negative => .infinite negative
  | .finite negative significand exponent =>
    .integer <| signed negative <|
      if 0 ≤ exponent then significand <<< exponent.toNat
      else (2 * significand + (1 <<< (-exponent).toNat)) >>> ((-exponent).toNat + 1)

/-- Bring a number into `low ..= high`. -/
def clamp (low high value : Int) : Int := max low (min high value)

/-- The nearest integer between `low` and `high`; zero for what is no number. -/
def Whole.clamped (low high : Int) : Whole → Int
  | .nan => 0
  | .infinite negative => if negative then low else high
  | .integer value => clamp low high value

/-- The nearest signed 64-bit integer. -/
def Whole.toSigned64 (w : Whole) : Int := w.clamped (-0x8000000000000000) 0x7fffffffffffffff

/-- The nearest unsigned 64-bit integer. -/
def Whole.toUnsigned64 (w : Whole) : Nat := (w.clamped 0 0xffffffffffffffff).toNat

/-- The value if it lies between `0` and `limit`. -/
def Whole.within (limit : Nat) : Whole → Option Nat
  | .integer value => if 0 ≤ value ∧ value ≤ limit then some value.toNat else none
  | _ => none

/-- Does a double stand for a number? -/
def isFinite (x : Float) : Bool :=
  match decode x with
  | .finite .. => true
  | _ => false

end GameBundle.Binary64
