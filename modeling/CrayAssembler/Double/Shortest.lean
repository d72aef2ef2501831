import CrayAssembler.Double.Basic
import CrayAssembler.Text.Digits

namespace CrayAssembler

namespace Double

/-- Ends and middle of the rounding interval in units of `2 ^ (scale - 2)`. -/
structure Interval where
  low : Nat
  middle : Nat
  high : Nat
  closed : Bool

def interval (x : Double) : Interval :=
  let m := x.significand
  let gapBelow := if m = hiddenBit ∧ 1 < x.exponentField then 1 else 2
  ⟨4 * m - gapBelow, 4 * m, 4 * m + 2, m % 2 = 0⟩

/-- Whether the ratio `value / unit` lies in the interval. -/
def Interval.contains (interval : Interval) (value unit : Nat) : Bool :=
  if interval.closed then interval.low * unit ≤ value && value ≤ interval.high * unit
  else interval.low * unit < value && value < interval.high * unit

/-- Positive multiple of `10 ^ power` in the interval of `x`, nearest to `x`. -/
def multipleInside? (x : Double) (power : Int) : Option Nat :=
  let binary := x.scale - 2
  -- one step of the grid is `step / unit` interval units
  let step := Nat.pow 10 power.toNat <<< (-binary).toNat
  let unit := Nat.pow 10 (-power).toNat <<< binary.toNat
  let interval := x.interval
  let below := interval.middle * unit / step
  let above := below + 1
  let lowHit := below ≠ 0 && interval.contains (below * step) unit
  let highHit := interval.contains (above * step) unit
  let nearerAbove := above * step - interval.middle * unit ≤ interval.middle * unit - below * step
  if lowHit && highHit then some (if nearerAbove then above else below)
  else if lowHit then some below
  else if highHit then some above
  else none

/-- Digits and power of ten of the shortest decimal for a positive finite number. -/
def shortest (x : Double) : Nat × Int :=
  let powers := (List.range 650).map fun (i : Nat) => (310 : Int) - (i : Int)
  match powers.findSome? fun power => (x.multipleInside? power).map (·, power) with
  | some found => found
  | none => (0, 0)

/-- A decimal written without an exponent, and without a point when it is whole. -/
def positional (digits : Nat) (power : Int) : String :=
  let shown := Nat.toDigits 10 digits
  match power with
  | .ofNat zeros => String.ofList (shown ++ List.replicate zeros '0')
  | .negSucc n =>
    let places := n + 1
    let padded := List.replicate (places + 1 - shown.length) '0' ++ shown
    let whole := padded.length - places
    String.ofList (padded.take whole ++ '.' :: padded.drop whole)

/-- Text of a number; zero keeps its sign. -/
def text (x : Double) : String :=
  if x.isNaN then "NaN"
  else
    let magnitude :=
      if x.isInfinite then "inf"
      else if x.isZero then "0"
      else
        let (digits, power) := x.abs.shortest
        positional digits power
    if x.negative then "-" ++ magnitude else magnitude

end Double

end CrayAssembler
