import FloatFlattening.Stored
import FloatFlattening.Text.Basic
/-!
The fewest decimal digits that lead back to a binary fraction, and of those the nearest. All of it is
exact arithmetic on whole numbers.
-/

namespace FloatFlattening

namespace Stored

/-- How far below a number others still round to it, in quarters of `2 ^ exponent`. -/
def below (s : Stored) : Nat :=
  if s.mantissa = 2 ^ bits ∧ leastExponent < s.exponent then 1 else 2

/-- Of the multiples of `10 ^ place` the nearest one that reads back, as the factor. -/
def multiple? (s : Stored) (place : Int) : Option Nat :=
  let quarter := s.exponent - 2
  let unit := power 10 place * power 2 (-quarter)
  let scale := power 2 quarter * power 10 (-place)
  let value := 4 * s.mantissa * scale
  let low := (4 * s.mantissa - s.below) * scale
  let high := (4 * s.mantissa + 2) * scale
  let readsBack (c : Nat) : Bool :=
    if s.mantissa % 2 = 0 then low ≤ c * unit && c * unit ≤ high
    else low < c * unit && c * unit < high
  let down := value / unit
  let up := down + 1
  match readsBack down, readsBack up with
  | false, false => none
  | true, false => some down
  | false, true => some up
  | true, true =>
    let left := value - down * unit
    let right := up * unit - value
    if left < right ∨ (left = right ∧ down % 2 = 0) then some down else some up

end Stored

namespace Report

/-- The number `0.digits * 10 ^ point`. -/
structure Digits where
  digits : Text
  point : Int
  deriving DecidableEq, Repr

namespace Digits

/-- How many digits always lead back. -/
def most : Nat := 17

/-- The shortest digits of a number above zero. -/
def shortest (s : Stored) : Digits :=
  let top := s.magnitude
  let places := (List.range most).map fun (n : Nat) => top - n
  let found := places.findSome? fun place => (s.multiple? place).map (·, place)
  let (factor, place) := found.getD (s.mantissa, s.exponent)
  let digits := Nat.toDigits 10 factor
  ⟨(digits.reverse.dropWhile (· = '0')).reverse, digits.length + place⟩

end Digits

end Report

end FloatFlattening
