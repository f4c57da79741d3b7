import ViewCompiler.Decimal.Binary64

/-!
# Shortest decimal text of a double

* `Decimal.shortest`: the fewest decimal digits that read back as the same double, and of those
  the nearest to it.
* `Decimal.text`: the digits laid out, positionally for exponents `-5` to `15` and with a marked
  exponent elsewhere.

The values that round to a double form an interval around it, whose ends belong to it when the
significand is even. For each number of digits the two neighbours of the value on that decimal
grid are tested; the first grid with a neighbour in the interval gives the digits.
-/

namespace ViewCompiler

namespace Decimal

/-- A positive decimal `digits * 10 ^ exponent`. -/
structure Scientific where
  /-- The digits, read as one number. -/
  digits : Nat
  /-- The power of ten of the last digit. -/
  exponent : Int
  deriving DecidableEq, Repr

/-- The reals that round to a double, in quarter units `2 ^ (q - 2)`: between `low` and `high`
around `value`, the ends included if `closed`. -/
structure Interval where
  low : Nat
  value : Nat
  high : Nat
  closed : Bool
  unit : Int

/-- The reals that round to the double with this pattern. -/
def Interval.ofMagnitude (magnitude : Nat) : Interval :=
  let (m, q) := Binary64.partsOf magnitude
  let narrow := magnitude % Nat.pow 2 52 = 0 && Nat.pow 2 53 ≤ magnitude
  { low := if narrow then 4 * m - 1 else 4 * m - 2
    value := 4 * m
    high := 4 * m + 2
    closed := m % 2 = 0
    unit := q - 2 }

/-- The number of decimal digits of a positive integer. -/
def digitCount (n : Nat) : Nat := (Nat.toDigits 10 n).length

/-- A point `d * 10 ^ k` and a length in units `2 ^ u`, brought to one common denominator. -/
def commonScale (k u : Int) : Nat × Nat :=
  ((if 0 ≤ k then Nat.pow 10 k.toNat else 1) * (if 0 ≤ u then 1 else Nat.pow 2 (-u).toNat),
    (if 0 ≤ u then Nat.pow 2 u.toNat else 1) * (if 0 ≤ k then 1 else Nat.pow 10 (-k).toNat))

/-- The neighbours on the grid of multiples of `10 ^ k` that lie in the interval; the nearer one,
and of two equally near the even one. -/
def onGrid (interval : Interval) (k : Int) : Option Nat :=
  let (pointScale, unitScale) := commonScale k interval.unit
  let value := interval.value * unitScale
  let inside (d : Nat) : Bool :=
    let point := d * pointScale
    let low := interval.low * unitScale
    let high := interval.high * unitScale
    if interval.closed then low ≤ point && point ≤ high else low < point && point < high
  let below := value / pointScale
  let above := below + 1
  match inside below, inside above with
  | true, true =>
    let down := value - below * pointScale
    let up := above * pointScale - value
    if down < up then some below
    else if up < down then some above
    else some (if below % 2 = 0 then below else above)
  | true, false => some below
  | false, true => some above
  | false, false => none

/-- The integer `e` with `10 ^ e ≤ value < 10 ^ (e + 1)` for the middle of the interval. -/
def leadingExponent (interval : Interval) : Int :=
  let (num, den) := Binary64.ratioOf interval.value interval.unit
  if den ≤ num then (digitCount (num / den) : Int) - 1
  else
    let k := digitCount (den / num)
    if den ≤ num * Nat.pow 10 (k - 1) then -((k : Int) - 1) else -(k : Int)

/-- The first grid, from `count` digits on, with a point in the interval. -/
def search (interval : Interval) (leading : Int) (count : Nat) : Nat → Scientific
  | 0 => ⟨interval.value, 0⟩
  | steps + 1 =>
    let k := leading + 1 - (count : Int)
    match onGrid interval k with
    | some d => if d = 0 then search interval leading (count + 1) steps else ⟨d, k⟩
    | none => search interval leading (count + 1) steps

/-- The digits without the zeros at their end. -/
def stripZeros (x : Scientific) : Nat → Scientific
  | 0 => x
  | steps + 1 =>
    if x.digits % 10 = 0 && x.digits ≠ 0 then stripZeros ⟨x.digits / 10, x.exponent + 1⟩ steps
    else x

/-- The fewest digits that read back as the positive double with this pattern. -/
def shortest (magnitude : Nat) : Scientific :=
  let interval := Interval.ofMagnitude magnitude
  stripZeros (search interval (leadingExponent interval) 1 17) 17

/-! ### Layout -/

/-- The decimal digits of a natural number. -/
def natDigits (n : Nat) : List Char := Nat.toDigits 10 n

/-- The digits laid out: positional when the leading digit stands for `10 ^ -5` to `10 ^ 15`,
always with a point, and else one digit before the point, the mark `e` and a signed exponent. -/
def layout (x : Scientific) : List Char :=
  let ds := natDigits x.digits
  let leading : Int := x.exponent + ds.length - 1
  if -5 ≤ leading && leading < 16 then
    if 0 ≤ x.exponent then ds ++ List.replicate x.exponent.toNat '0' ++ ['.', '0']
    else if 0 ≤ leading then
      ds.take (leading.toNat + 1) ++ '.' :: ds.drop (leading.toNat + 1)
    else '0' :: '.' :: List.replicate (-leading - 1).toNat '0' ++ ds
  else
    let fraction := match ds.tail with
      | [] => []
      | rest => '.' :: rest
    let sign := if 0 ≤ leading then '+' else '-'
    ds.take 1 ++ fraction ++ 'e' :: sign :: natDigits leading.natAbs

/-- The text of a double: its shortest digits laid out, and `0.0` for zero. -/
def text (x : Binary64) : List Char :=
  let body := if x.isZero then ['0', '.', '0'] else layout (shortest x.magnitude)
  if x.negative then '-' :: body else body

end Decimal

end ViewCompiler
