import FloatFlattening.Text.Basic
/-!
Finding and splitting pieces of a text.
-/

namespace FloatFlattening.Text

/-- What follows `pat` when the text begins with it. -/
def after? : (pat t : Text) → Option Text
  | [], t => some t
  | _ :: _, [] => none
  | p :: pat, c :: t => if p = c then after? pat t else none

theorem after?_eq_some_iff {pat t r : Text} : after? pat t = some r ↔ t = pat ++ r := by
  induction pat generalizing t with
  | nil => simp [after?, eq_comm]
  | cons p pat ih =>
    cases t with
    | nil => simp [after?]
    | cons c t => by_cases h : p = c <;> simp [after?, h, ih, eq_comm]

def occursIn (pat : Text) : Text → Bool
  | [] => pat.isEmpty
  | c :: t => (after? pat (c :: t)).isSome || occursIn pat t

def endsWith (t pat : Text) : Bool := pat.isSuffixOf t

/-- The lines of a text without their ends (a line feed, or a carriage return and a line feed). -/
def lines : Text → List Text
  | [] => []
  | c :: t =>
    match _h : (c :: t).dropWhile (· ≠ '\n') with
    | [] => [c :: t]
    | _ :: rest => dropReturn ((c :: t).takeWhile (· ≠ '\n')) :: lines rest
termination_by t => t.length
decreasing_by
  have := (List.dropWhile_suffix (l := c :: t) (· ≠ '\n')).length_le
  rw [_h] at this
  simp at this ⊢
  omega
where
  dropReturn (line : Text) : Text :=
    if line.getLast? = some '\r' then line.dropLast else line

def joinWith (sep : Text) (parts : List Text) : Text := List.intercalate sep parts

/-- The parts between commas, at least one. -/
def splitCommas (t : Text) : List Text := t.splitOn ','

end FloatFlattening.Text
