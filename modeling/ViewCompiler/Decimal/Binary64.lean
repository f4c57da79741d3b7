/-!
# Binary floating-point numbers of 64 bits

A `Binary64` is a finite double, kept as its sign and the other 63 bits of its pattern read as a
natural number. Everything here is exact arithmetic on natural numbers.

* `Binary64.parts`: the significand `m` and the exponent `q` with value `m * 2 ^ q`.
* `Binary64.nearest?`: the double nearest to a ratio, a tie going to the even significand, and
  nothing when the ratio is beyond the range.
* `Binary64.scaled?`: an integer below `2 ^ 64` times a power of ten, rounded after the integer
  is made a double and after each multiplication or division by a double power of ten.
-/

namespace ViewCompiler

/-- A finite double. -/
structure Binary64 where
  /-- Is the sign bit set? -/
  negative : Bool
  /-- The pattern without the sign bit. -/
  magnitude : Nat
  /-- The pattern is that of a finite number. -/
  finite : magnitude < 2047 * Nat.pow 2 52
  deriving DecidableEq

namespace Binary64

/-- Zero without sign. -/
def zero : Binary64 := ⟨false, 0, by decide⟩

instance : Inhabited Binary64 := ⟨zero⟩

/-- The number with the sign given. -/
def withSign (negative : Bool) (x : Binary64) : Binary64 := { x with negative := negative }

/-- The significand and the exponent of a pattern: its value is `m * 2 ^ q`. -/
def partsOf (magnitude : Nat) : Nat × Int :=
  if magnitude < Nat.pow 2 52 then (magnitude, -1074)
  else (Nat.pow 2 52 + magnitude % Nat.pow 2 52, (magnitude / Nat.pow 2 52 : Nat) - 1075)

/-- The significand `m` and the exponent `q` of the absolute value `m * 2 ^ q`. -/
def parts (x : Binary64) : Nat × Int := partsOf x.magnitude

/-- Is the number zero, of either sign? -/
def isZero (x : Binary64) : Bool := x.magnitude = 0

/-- The ratio `m * 2 ^ q` as numerator and denominator. -/
def ratioOf (m : Nat) (q : Int) : Nat × Nat :=
  if 0 ≤ q then (m * Nat.pow 2 q.toNat, 1) else (m, Nat.pow 2 (-q).toNat)

/-- The quotient rounded to the nearest integer, a tie going to the even one. -/
def roundDiv (num den : Nat) : Nat :=
  let quotient := num / den
  let rest := num % den
  if 2 * rest < den then quotient
  else if den < 2 * rest then quotient + 1
  else quotient + quotient % 2

/-- The exponent `q` for which `num / den` lies in `[2 ^ 52, 2 ^ 53)` units of `2 ^ q`, but not
below the exponent of the subnormal numbers. -/
def exponentFor (num den : Nat) : Int :=
  let guess : Int := (num.log2 : Int) - (den.log2 : Int) - 53
  let (scaledNum, scaledDen) := scale guess
  max (-1074) (if scaledNum / scaledDen < Nat.pow 2 53 then guess else guess + 1)
where
  /-- The ratio in units of `2 ^ q`. -/
  scale (q : Int) : Nat × Nat :=
    if 0 ≤ q then (num, den * Nat.pow 2 q.toNat) else (num * Nat.pow 2 (-q).toNat, den)

/-- The pattern of the double nearest to `num / den`; it may be beyond the finite ones. -/
def nearestMagnitude (num den : Nat) : Nat :=
  if num = 0 then 0
  else
    let q := exponentFor num den
    let (scaledNum, scaledDen) := exponentFor.scale num den q
    (q + 1074).toNat * Nat.pow 2 52 + roundDiv scaledNum scaledDen

/-- The double nearest to `num / den`, unless that is beyond the range. -/
def nearest? (num den : Nat) : Option Binary64 :=
  if h : nearestMagnitude num den < 2047 * Nat.pow 2 52 then
    some ⟨false, nearestMagnitude num den, h⟩
  else none

/-- The product of two doubles, rounded. -/
def mul? (x y : Binary64) : Option Binary64 :=
  let (m, q) := x.parts
  let (n, r) := y.parts
  let (num, den) := ratioOf (m * n) (q + r)
  nearest? num den

/-- The quotient of two doubles, rounded. -/
def div? (x y : Binary64) : Option Binary64 :=
  let (m, q) := x.parts
  let (n, r) := y.parts
  let (num, den) := ratioOf m (q - r)
  nearest? num (den * n)

/-- The double nearest to a power of ten. -/
def powerOfTen (k : Nat) : Option Binary64 := nearest? (Nat.pow 10 k) 1

/-- The largest power of ten used in one step. -/
def maxPower : Nat := 308

/-- The double `x * 10 ^ exponent`, by one multiplication, or by divisions of at most `10 ^ 308`
each. -/
def scale? (x : Binary64) (exponent : Int) : Option Binary64 :=
  if 0 ≤ exponent then
    if exponent.toNat ≤ maxPower then (powerOfTen exponent.toNat).bind (mul? x)
    else if x.isZero then some x else none
  else shrink (-exponent).toNat ((-exponent).toNat / maxPower + 1) x
where
  /-- Divide by `10 ^ k` in at most `steps` steps. -/
  shrink (k : Nat) : Nat → Binary64 → Option Binary64
    | 0, x => some x
    | steps + 1, x =>
      if k ≤ maxPower then (powerOfTen k).bind (div? x)
      else if x.isZero then some x
      else ((powerOfTen maxPower).bind (div? x)).bind (shrink (k - maxPower) steps)

/-- The double for `significand * 10 ^ exponent`. -/
def scaled? (significand : Nat) (exponent : Int) : Option Binary64 :=
  (nearest? significand 1).bind (scale? · exponent)

/-- The double nearest to an integer of the given sign. -/
def ofNat? (negative : Bool) (n : Nat) : Option Binary64 :=
  (nearest? n 1).map (withSign negative)

end Binary64

end ViewCompiler
