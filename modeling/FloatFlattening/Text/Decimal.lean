import FloatFlattening.Text.Basic
/-!
Decimal fractions as they are written: `12`, `1.5` or `.5`, without sign or exponent.
-/

namespace FloatFlattening

/-- The value `digits / 10 ^ places`. -/
structure Decimal where
  digits : Nat
  places : Nat
  deriving DecidableEq, Repr

namespace Decimal

def one : Decimal := ⟨1, 0⟩

def value (digits : Text) : Nat := digits.foldl (fun n c => 10 * n + (c.toNat - '0'.toNat)) 0

/-- Digits may be missing before the point, but not after it. -/
def ofText? (t : Text) : Option Decimal :=
  let whole := t.takeWhile Char.isDigit
  match t.drop whole.length with
  | [] => if whole.isEmpty then none else some ⟨value whole, 0⟩
  | '.' :: fraction =>
    if fraction.isEmpty || !fraction.all Char.isDigit then none
    else some ⟨value (whole ++ fraction), fraction.length⟩
  | _ => none

/-- The nearest binary fraction; infinite past the range. -/
def toFloat (d : Decimal) : Float := Float.ofScientific d.digits true d.places

end Decimal

end FloatFlattening
