import GameBundle.Numeric.Binary64

set_option autoImplicit false

/-! # Doubles in decimal

Reading: `Decimal.toFloat` is the double nearest to a decimal of any length, and `Decimal.read?`
accepts the usual spellings of a number, `inf`, `infinity` and `nan` among them.

Writing: `Decimal.shortest` finds the decimal with the fewest digits that reads back as a given
double, and of several the one nearest to it. A decimal reads back when it lies in the interval of
numbers that round to the double, ends included when its significand is even. For one digit, two
digits and so on only the two neighbours of the double on the decimal grid have to be tried: if any
point of the grid lies in the interval, so does one of them. -/

namespace GameBundle

/-- The number `digits * 10 ^ exponent`. -/
structure Decimal where
  digits : Nat
  exponent : Int
  deriving Repr, DecidableEq, Inhabited

namespace Decimal

open Binary64

/-! ## Counting digits -/

/-- The number of decimal digits; zero has none. -/
def length (n : Nat) : Nat :=
  if h : n = 0 then 0 else length (n / 10) + 1
  decreasing_by omega

/-- The number spelled by a list of decimal digits. -/
def ofDigits (digits : List Nat) : Nat := digits.foldl (fun n d => 10 * n + d) 0

/-- The value of a decimal digit. -/
def digit? (c : Char) : Option Nat :=
  if '0' ≤ c ∧ c ≤ '9' then some (c.toNat - '0'.toNat) else none

/-- The digits at the front of a text and what follows them. -/
def takeDigits : List Char → List Nat × List Char
  | [] => ([], [])
  | c :: rest =>
    match digit? c with
    | some d =>
      let (digits, after) := takeDigits rest
      (d :: digits, after)
    | none => ([], c :: rest)

/-- The power of ten with a given exponent. -/
def tenTo (exponent : Nat) : Nat := Nat.pow 10 exponent

/-! ## Reading -/

/-- The double nearest to a decimal. The first two cases are far outside the range of doubles and
    spare the powers of ten. -/
def toFloat (d : Decimal) : Float :=
  let order := length d.digits + d.exponent
  if d.digits = 0 ∨ order < -330 then nearest 0 0
  else if 310 < order then nearest 1 2000
  else if 0 ≤ d.exponent then nearestRatio (d.digits * tenTo d.exponent.toNat) 1
  else nearestRatio d.digits (tenTo (-d.exponent).toNat)

/-- An exponent mark with its digits; nothing at the end of the text counts as zero. -/
def readExponent? : List Char → Option Int
  | [] => some 0
  | mark :: rest =>
    if mark = 'e' ∨ mark = 'E' then
      let (negative, digits) :=
        match rest with
        | '-' :: after => (true, after)
        | '+' :: after => (false, after)
        | after => (false, after)
      match takeDigits digits with
      | (d :: ds, []) => some (signed negative (ofDigits (d :: ds)))
      | _ => none
    else none

/-- A decimal without sign: digits with at most one point among them, at least one digit, and an
    exponent or none. -/
def readUnsigned? (text : List Char) : Option Decimal := do
  let (whole, rest) := takeDigits text
  let (fraction, rest) :=
    match rest with
    | '.' :: after => takeDigits after
    | after => ([], after)
  if whole.isEmpty ∧ fraction.isEmpty then none
  else
    let exponent ← readExponent? rest
    return ⟨ofDigits (whole ++ fraction), exponent - fraction.length⟩

/-- The double that a text spells: an optional sign, then a decimal or one of `inf`, `infinity` and
    `nan` in letters of either case. -/
def read? (text : String) : Option Float :=
  let (negative, body) :=
    match text.toList with
    | '-' :: rest => (true, rest)
    | '+' :: rest => (false, rest)
    | rest => (false, rest)
  let magnitude :=
    match String.ofList (body.map Char.toLower) with
    | "inf" => some (Float.ofBits 0x7ff0000000000000)
    | "infinity" => some (Float.ofBits 0x7ff0000000000000)
    | "nan" => some (Float.ofBits 0x7ff8000000000000)
    | _ => (readUnsigned? body).map toFloat
  magnitude.map fun x => if negative then -x else x

/-! ## Writing -/

/-- A positive double `value / den` and the numbers `low / den ..= high / den` that round to it. -/
structure Rounding where
  low : Nat
  value : Nat
  high : Nat
  den : Nat
  /-- Do the ends belong to the interval? -/
  closed : Bool
  deriving Repr

/-- The interval around `significand * 2 ^ exponent`. Below a power of two the doubles lie twice as
    close, except at the bottom of their range. -/
def rounding (significand : Nat) (exponent : Int) : Rounding :=
  let unit : Nat := 1 <<< exponent.toNat
  let below := if significand = 1 <<< 52 ∧ -1074 < exponent then 1 else 2
  { low := (4 * significand - below) * unit
    value := 4 * significand * unit
    high := (4 * significand + 2) * unit
    den := 4 <<< (-exponent).toNat
    closed := significand % 2 == 0 }

/-- The power of ten of the first digit of `num / den`. -/
def leadingPower (num den : Nat) : Int :=
  if den ≤ num then (length (num / den) : Int) - 1
  else -(length ((den + num - 1) / num - 1) : Int)

/-- The neighbour of a double on the grid of multiples of `10 ^ power` that reads back as it, the
    nearer one if both do and the even one if they are equally near. -/
def onGrid? (r : Rounding) (power : Int) : Option Nat :=
  let up := tenTo (-power).toNat
  let step := r.den * tenTo power.toNat
  let inside := fun n =>
    if r.closed then r.low * up ≤ n * step ∧ n * step ≤ r.high * up
    else r.low * up < n * step ∧ n * step < r.high * up
  let below := r.value * up / step
  let rest := r.value * up % step
  match decide (0 < below ∧ inside below), decide (inside (below + 1)) with
  | true, true =>
    if 2 * rest < step ∨ (2 * rest = step ∧ below % 2 = 0) then some below else some (below + 1)
  | true, false => some below
  | false, true => some (below + 1)
  | false, false => none

/-- The first grid with a hit, from `power` downwards. -/
def searchGrids (r : Rounding) : Nat → Int → Decimal
  | 0, power => ⟨r.value * tenTo (-power).toNat / (r.den * tenTo power.toNat), power⟩
  | tries + 1, power =>
    match onGrid? r power with
    | some digits => ⟨digits, power⟩
    | none => searchGrids r tries (power - 1)

/-- Move zeros at the end of the digits into the exponent. -/
def trimZeros : Nat → Decimal → Decimal
  | 0, d => d
  | tries + 1, d =>
    if d.digits % 10 = 0 ∧ d.digits ≠ 0 then trimZeros tries ⟨d.digits / 10, d.exponent + 1⟩ else d

/-- The shortest decimal that reads back as the positive double `significand * 2 ^ exponent`.
    Seventeen digits always suffice. -/
def shortest (significand : Nat) (exponent : Int) : Decimal :=
  let r := rounding significand exponent
  trimZeros 20 (searchGrids r 17 (leadingPower r.value r.den))

/-! ## Layout -/

/-- When a number is written out and when with a power of ten: `plainFrom ..= plainTo` are the
    powers of the first digit that are written out. -/
structure Layout where
  plainFrom : Int
  plainTo : Int
  deriving Repr

/-- Written out there is always a digit on both sides of the point. A power of ten always has its
    sign, and then there is a point only between digits. -/
def render (layout : Layout) (d : Decimal) : String :=
  let digits := toString d.digits
  let count := digits.length
  let power := d.exponent + count - 1
  let zeros := fun (n : Nat) => String.ofList (List.replicate n '0')
  let split := fun (n : Nat) =>
    String.ofList (digits.toList.take n) ++ "." ++ String.ofList (digits.toList.drop n)
  if layout.plainFrom ≤ power ∧ power ≤ layout.plainTo then
    if power < 0 then "0." ++ zeros (-power - 1).toNat ++ digits
    else if count ≤ power + 1 then digits ++ zeros (power + 1 - count).toNat ++ ".0"
    else split (power + 1).toNat
  else
    let mantissa := if count = 1 then digits else split 1
    mantissa ++ "e" ++ (if power < 0 then "-" else "+") ++ toString power.natAbs

end Decimal

end GameBundle
