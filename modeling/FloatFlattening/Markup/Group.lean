import FloatFlattening.Text.Blank
/-!
Groups in braces and brackets. A backslash takes the next character out of the pairing. Lengths
count the characters between the delimiters, the opening one being already read.
-/

namespace FloatFlattening

/-- The length of a brace group, with `depth` further groups open inside it. -/
def braceLength? : Nat → Text → Option Nat
  | _, [] => none
  | _, ['\\'] => none
  | depth, '\\' :: _ :: t => (braceLength? depth t).map (· + 2)
  | depth, '{' :: t => (braceLength? (depth + 1) t).map (· + 1)
  | 0, '}' :: _ => some 0
  | depth + 1, '}' :: t => (braceLength? depth t).map (· + 1)
  | depth, _ :: t => (braceLength? depth t).map (· + 1)

theorem braceLength?_lt {depth n : Nat} {t : Text} (h : braceLength? depth t = some n) :
    n < t.length := by
  fun_induction braceLength? depth t generalizing n with
  | case1 | case2 => simp at h
  | case3 _ _ _ ih | case4 _ _ ih | case6 _ _ ih | case7 _ _ _ _ _ _ _ _ ih =>
    obtain ⟨m, hm, rfl⟩ := Option.map_eq_some_iff.1 h
    have := ih hm
    simp only [List.length_cons]
    omega
  | case5 => simp_all; omega

/-- The length of a bracket group, with `depth` further brackets open inside it; brace groups
within it hold no brackets. -/
def bracketLength? : Nat → Text → Option Nat
  | _, [] => none
  | _, ['\\'] => none
  | depth, '\\' :: _ :: t => (bracketLength? depth t).map (· + 2)
  | depth, '{' :: t =>
    match braceLength? 0 t with
    | none => none
    | some n => (bracketLength? depth (t.drop (n + 1))).map (· + (n + 2))
  | depth, '[' :: t => (bracketLength? (depth + 1) t).map (· + 1)
  | 0, ']' :: _ => some 0
  | depth + 1, ']' :: t => (bracketLength? depth t).map (· + 1)
  | depth, _ :: t => (bracketLength? depth t).map (· + 1)
termination_by _ t => t.length

/-- The position of the brace that closes the one at `start`. -/
def closingBrace? (t : Text) (start : Nat) : Option Nat :=
  (braceLength? 0 (t.drop (start + 1))).map (· + (start + 1))

/-- The positions of all opening braces, escaped or not. -/
def openingBraces (t : Text) : List Nat :=
  (List.range t.length).filter fun i => t[i]? = some '{'

end FloatFlattening
