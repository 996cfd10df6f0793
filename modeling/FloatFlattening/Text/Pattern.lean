import FloatFlattening.Text.Blank
import FloatFlattening.Text.Category
/-!
Patterns that match at one place of a text in one way: a pattern gives the length of its match.
-/

namespace FloatFlattening

structure Pattern where
  length? : Text → Option Nat

namespace Pattern

instance : Append Pattern where
  append p q := ⟨fun t => do
    let n ← p.length? t
    let m ← q.length? (t.drop n)
    return n + m⟩

/-- The first pattern where it matches, else the second. -/
instance : OrElse Pattern where
  orElse p q := ⟨fun t => (p.length? t).orElse fun _ => (q ()).length? t⟩

def word (w : Text) : Pattern := ⟨fun t => if w.isPrefixOf t then some w.length else none⟩

def oneOf (ws : List Text) : Pattern :=
  ⟨fun t => (ws.find? (·.isPrefixOf t)).map List.length⟩

/-- As many characters of a class as follow, perhaps none. -/
def many (p : Char → Bool) : Pattern := ⟨fun t => some (t.takeWhile p).length⟩

def blanks : Pattern := many Text.isBlank

def opt (p : Pattern) : Pattern := ⟨fun t => some ((p.length? t).getD 0)⟩

/-- Nothing, where no word goes on. -/
def wordEnd : Pattern :=
  ⟨fun t => if t.head?.any Text.isWordChar then none else some 0⟩

/-- Braces around characters that are no braces. -/
def flatGroup : Pattern :=
  word "\x7b" ++ many (fun c => c ≠ '{' && c ≠ '}') ++ word "\x7d"

def occursIn (p : Pattern) : Text → Bool
  | [] => (p.length? []).isSome
  | c :: t => (p.length? (c :: t)).isSome || p.occursIn t

/-- The matches of a pattern, from the left and without overlap, exchanged for `value`. -/
def exchange (p : Pattern) (value : Text) : Text → Text
  | [] => []
  | c :: t =>
    match p.length? (c :: t) with
    | none => c :: p.exchange value t
    | some n => value ++ p.exchange value (t.drop (n - 1))
termination_by t => t.length
decreasing_by all_goals simp only [List.length_drop, List.length_cons]; omega

def erase (p : Pattern) (t : Text) : Text := p.exchange [] t

/-- Where each match begins, counted from `pos`, and its length. -/
def spans (p : Pattern) (pos : Nat) : Text → List Span
  | [] => []
  | c :: t =>
    match p.length? (c :: t) with
    | none => p.spans (pos + 1) t
    | some n => ⟨pos, pos + n⟩ :: p.spans (pos + 1 + (n - 1)) (t.drop (n - 1))
termination_by t => t.length
decreasing_by all_goals simp only [List.length_drop, List.length_cons]; omega

end Pattern

end FloatFlattening
