import FloatFlattening.Fault
/-!
The result of looking for constructs in a text: those found, in order, and the malformed one that
ended the search, if any.
-/

namespace FloatFlattening

inductive Defect
  | openBracket
  | openBrace
  | openGroup
  | openEnvironment (name : Text)
  deriving DecidableEq, Repr

def Defect.describe : Defect → Text
  | openBracket => "unbalanced `[` optional argument"
  | openBrace => "unbalanced braces in argument"
  | openGroup => "unbalanced path group"
  | openEnvironment name => "environment is never closed with \\end\x7b" ++ name ++ "\x7d"

structure Malformed where
  construct : Text
  pos : Nat
  defect : Defect
  deriving DecidableEq, Repr

def Malformed.fault (t : Text) (m : Malformed) : Fault :=
  .malformed m.construct (t.lineOf m.pos) m.defect.describe

structure Scan (α : Type u) where
  found : List α
  stopped : Option Malformed
  deriving Repr

namespace Scan

def done : Scan α := ⟨[], none⟩

def stop (m : Malformed) : Scan α := ⟨[], some m⟩

def cons (a : α) (s : Scan α) : Scan α := ⟨a :: s.found, s.stopped⟩

def map (f : α → β) (s : Scan α) : Scan β := ⟨s.found.map f, s.stopped⟩

/-- All that a search of `t` found, unless it met a malformed construct. -/
def complete (t : Text) (s : Scan α) : Except Fault (List α) :=
  match s.stopped with
  | none => .ok s.found
  | some m => .error (m.fault t)

/-- What `f` makes of each thing found. A fault of `f` comes before the malformed construct that
ended the search, which comes last in the text. -/
def traverse (t : Text) (f : α → Except Fault β) (s : Scan α) : Except Fault (List β) := do
  let found ← s.found.mapM f
  (⟨found, s.stopped⟩ : Scan β).complete t

@[simp] theorem found_cons (a : α) (s : Scan α) : (s.cons a).found = a :: s.found := rfl

@[simp] theorem stopped_cons (a : α) (s : Scan α) : (s.cons a).stopped = s.stopped := rfl

@[simp] theorem found_map (f : α → β) (s : Scan α) : (s.map f).found = s.found.map f := rfl

@[simp] theorem stopped_map (f : α → β) (s : Scan α) : (s.map f).stopped = s.stopped := rfl

theorem complete_eq_ok_iff {t : Text} {s : Scan α} {l : List α} :
    s.complete t = .ok l ↔ s.stopped = none ∧ s.found = l := by
  cases h : s.stopped <;> simp [complete, h]

end Scan

end FloatFlattening
