import FloatFlattening.Text.Pattern
/-!
File stems. The stem of a label holds letters, numbers, `_` and `-` only; stems that would be equal
are told apart by a number.
-/

namespace FloatFlattening.Stem

def isSafe (c : Char) : Bool := Text.isLetter c || Text.isNumber c || c = '_' || c = '-'

/-- Exchanges each run of unsafe characters for one `_`. -/
def sanitize : Text → Text
  | [] => []
  | c :: t =>
    if isSafe c then c :: sanitize t
    else
      match t with
      | [] => ['_']
      | d :: _ => if isSafe d then '_' :: sanitize t else sanitize t

def labelKind : Pattern := .oneOf ["fig", "tab"] ++ .oneOf [":", "_", "-"]

def trimUnderscores (t : Text) : Text :=
  ((t.dropWhile (· = '_')).reverse.dropWhile (· = '_')).reverse

/-- The label without its kind, such as `results_overview` for `fig:results/overview`. -/
def ofLabel (label : Text) : Text :=
  let stem := trimUnderscores (sanitize (label.drop ((labelKind.length? label).getD 0)))
  if stem.isEmpty then "unnamed" else stem

def candidate (base : Text) (n : Nat) : Text :=
  if n = 1 then base else base ++ "_" ++ Text.ofNat n

/-- The first candidate not in use; one of the first `used.length + 1` is free. -/
def fresh (used : List Text) (base : Text) : Text :=
  (((List.range' 1 (used.length + 1)).map (candidate base)).find? (· ∉ used)).getD base

end FloatFlattening.Stem
