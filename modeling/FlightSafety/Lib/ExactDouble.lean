/-
Doubles read as exact rationals, with the values that are no number kept
apart.  Their own arithmetic is exact; conversions to and from machine
integers and the arithmetic of floats are not.
-/
import Mathlib.Algebra.Order.Field.Rat
import Mathlib.Data.Nat.Log

namespace ExactDouble

inductive Double where
  | nan
  | infinity (negative : Bool)
  | finite (value : ℚ)
deriving Repr, DecidableEq

/-- Division by a positive constant. -/
def Double.div (v : Double) (c : ℚ) : Double :=
  match v with
  | .nan => .nan
  | .infinity negative => .infinity negative
  | .finite value => .finite (value / c)

/-- The conversion of a double to `int32_t`: truncation toward zero, where
the truncated value fits.  Elsewhere the language defines no value. -/
def Double.toInt32? : Double → Option Int32
  | .nan | .infinity _ => none
  | .finite value =>
      let truncated := value.num.tdiv value.den
      if -2 ^ 31 ≤ truncated ∧ truncated < 2 ^ 31 then
        some (Int32.ofInt truncated)
      else none

/-- What a machine leaves behind where a conversion to `int32_t` is not
defined. -/
class Target where
  outOfRange : Double → Int32

/-- The machine this code is built for stores its integer-indefinite value. -/
@[reducible] def Target.indefinite : Target :=
  ⟨fun _ => Int32.minValue⟩

def Double.toInt32 [Target] (v : Double) : Int32 :=
  v.toInt32?.getD (Target.outOfRange v)

/-- Rounding to a 24-bit significand, ties to the even neighbour: the
conversion of an integer to `float`, and, in units of some power of two, the
rounding of a product of two. -/
def roundToFloat (n : Int) : Int :=
  let magnitude := n.natAbs
  let shift := Nat.log 2 magnitude - 23
  let quotient := magnitude / 2 ^ shift
  let dropped := magnitude % 2 ^ shift
  let half := 2 ^ shift / 2
  let rounded :=
    if half < dropped ∨ (dropped = half ∧ 0 < dropped ∧ quotient % 2 = 1)
    then quotient + 1 else quotient
  n.sign * ((rounded * 2 ^ shift : Nat) : Int)

/-- The product of an integer and a `float`, as a `float`.  The integer is
converted first.  Both the float and the product are in units of the float's
last place. -/
def floatProduct (n significand : Int) : Int :=
  roundToFloat (roundToFloat n * significand)

end ExactDouble
