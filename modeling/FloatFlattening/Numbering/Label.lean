import FloatFlattening.Text.Basic
/-!
Labels with the numbers they stand for.
-/

namespace FloatFlattening

inductive Label.Kind
  | figure
  | panel
  | table
  | equation
  /-- Outside floats and equations; in practice a heading. -/
  | heading
  deriving DecidableEq, Repr

structure Label where
  id : Text
  kind : Label.Kind
  /-- The figure of a panel. -/
  parent : Option Text
  /-- Counts from 1 within a kind; a panel has the index of its figure. -/
  index : Nat
  letter : Option Char
  /-- The label that this is a further name for. -/
  aliasOf : Option Text
  line : Nat
  deriving DecidableEq, Repr

/-- What a reference to a label prints, such as `3` or `3(b)`. -/
structure Tag where
  kind : Label.Kind
  index : Nat
  letter : Option Char
  deriving DecidableEq, Repr

def Tag.text (tag : Tag) : Text :=
  match tag.letter with
  | none => Text.ofNat tag.index
  | some letter => Text.ofNat tag.index ++ "(" ++ [letter] ++ ")"

def Label.tag (l : Label) : Tag := ⟨l.kind, l.index, l.letter⟩

namespace Panel

/-- The most panels that one figure can letter, `a` through `z`. -/
def maxCount : Nat := 26

def letter? (position : Nat) : Option Char :=
  if position < maxCount then some (Char.ofNat ('a'.toNat + position)) else none

theorem letter?_eq_none_iff {position : Nat} : letter? position = none ↔ maxCount ≤ position := by
  simp [letter?]

end Panel

end FloatFlattening
