import FloatFlattening.Shell.Arithmetic
import FloatFlattening.Stored
/-!
Numbers with a fraction, with a number of places after the point or in powers of ten.
-/

namespace FloatFlattening.Shell

/-- A floating-point number by its sign and its size. -/
structure Real where
  isNegative : Bool
  size : Stored
  deriving DecidableEq, Repr

namespace Real

def zero : Real := ⟨false, .ofFloat 0⟩

/-- The power of ten at the beginning of a text, and what follows it. -/
def exponent (t : Text) : Int × Text :=
  match t with
  | e :: t' =>
    let (sign, r) := Arithmetic.signed t'
    let digits := r.takeWhile Char.isDigit
    if (e = 'e' ∨ e = 'E') ∧ !digits.isEmpty then
      (sign * Decimal.value digits, r.drop digits.length)
    else (0, t)
  | [] => (0, [])

/-- The number at the beginning of a text, and what follows it. -/
def leading? (t : Text) : Option (Real × Text) :=
  let (sign, t) := Arithmetic.signed t
  let whole := t.takeWhile Char.isDigit
  let t := t.drop whole.length
  let fraction :=
    match t with
    | '.' :: t => t.takeWhile Char.isDigit
    | _ => []
  let t := t.drop (if t.head? = some '.' then fraction.length + 1 else 0)
  if whole.isEmpty ∧ fraction.isEmpty then none
  else
    let (power, rest) := exponent t
    let power := power - fraction.length
    let x := Float.ofScientific (Decimal.value (whole ++ fraction)) (power < 0) power.natAbs
    some (⟨sign < 0, .ofFloat x⟩, rest)

/-- Decimal digits with a point before the last of them. -/
def pointed (n places : Nat) (isMarked : Bool) : Text :=
  let digits := Nat.toDigits 10 n
  let digits := List.replicate (places + 1 - digits.length) '0' ++ digits
  let whole := digits.length - places
  digits.take whole ++ (if 0 < places ∨ isMarked then ['.'] else []) ++ digits.drop whole

def fixed (x : Real) (places : Nat) (isMarked : Bool) : Text :=
  pointed (x.size.nearest (-places)) places isMarked

/-- The digits with the given number of places after the first, and the power of ten of the first. -/
def digits (x : Real) (places : Nat) : Nat × Int :=
  if x.size.mantissa = 0 then (0, 0)
  else
    let top := x.size.magnitude
    let n := x.size.nearest (top - places)
    if 10 ^ (places + 1) ≤ n then (n / 10, top + 1) else (n, top)

def power (e : Char) (n : Int) : Text :=
  let size := Nat.toDigits 10 n.natAbs
  [e, if n < 0 then '-' else '+'] ++ List.replicate (2 - size.length) '0' ++ size

def scientific (x : Real) (e : Char) (places : Nat) (isMarked : Bool) : Text :=
  let (n, top) := x.digits places
  pointed n places isMarked ++ power e top

/-- Without zeros at the end of the fraction. -/
def trimmed (t : Text) : Text :=
  if t.contains '.' then
    let r := t.reverse.dropWhile (· = '0')
    (if r.head? = some '.' then r.tail else r).reverse
  else t

/-- The form that is shorter, with so many digits. -/
def general (x : Real) (e : Char) (count : Nat) (isMarked : Bool) : Text :=
  let count := max 1 count
  let (n, top) := x.digits (count - 1)
  let trim (t : Text) : Text := if isMarked then t else trimmed t
  if -4 ≤ top ∧ top < count then
    trim (x.fixed ((count : Int) - 1 - top).toNat isMarked)
  else trim (pointed n (count - 1) isMarked) ++ power e top

end Real

end FloatFlattening.Shell
