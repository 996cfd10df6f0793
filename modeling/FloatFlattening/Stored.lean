import FloatFlattening.Text.Basic
/-!
The numbers that floating-point numbers store, as exact binary fractions, and their decimal digits.
-/

namespace FloatFlattening

/-- The number `mantissa * 2 ^ exponent`, as a floating-point number stores it. -/
structure Stored where
  mantissa : Nat
  exponent : Int
  deriving DecidableEq, Repr

namespace Stored

def bits : Nat := 52

def leastExponent : Int := -1074

/-- The size of a finite number, without its sign. -/
def ofFloat (x : Float) : Stored :=
  let b := x.toBits.toNat % 2 ^ 63
  if b < 2 ^ bits then ⟨b, leastExponent⟩
  else ⟨b % 2 ^ bits + 2 ^ bits, (b / 2 ^ bits : Nat) - 1 + leastExponent⟩

def power (base : Nat) (exponent : Int) : Nat := base ^ exponent.toNat

/-- The power of ten that is the greatest up to a number above zero. -/
def magnitude (s : Stored) : Int :=
  let shift : Nat := 400
  let whole := s.mantissa * power 2 s.exponent * 10 ^ shift / power 2 (-s.exponent)
  (Nat.toDigits 10 whole).length - 1 - shift

/-- The nearest multiple of `10 ^ place`, as the factor; of two the even one. -/
def nearest (s : Stored) (place : Int) : Nat :=
  let value := s.mantissa * power 2 s.exponent * power 10 (-place)
  let unit := power 2 (-s.exponent) * power 10 place
  let down := value / unit
  let twice := 2 * (value % unit)
  if unit < twice ∨ (twice = unit ∧ down % 2 = 1) then down + 1 else down

end Stored

end FloatFlattening
