import FloatFlattening.Markup.Group
import FloatFlattening.Markup.Scan
/-!
The arguments after a command name: bracket groups, then a fixed number of brace groups, with
blanks between them. A `Cursor` is a position together with the text from there on.
-/

namespace FloatFlattening

structure Cursor where
  pos : Nat
  rest : Text

namespace Cursor

def ofPosition (t : Text) (pos : Nat) : Cursor := ⟨pos, t.drop pos⟩

def skip (c : Cursor) (n : Nat) : Cursor := ⟨c.pos + n, c.rest.drop n⟩

def skipBlanks (c : Cursor) : Cursor := c.skip (c.rest.takeWhile Text.isAsciiBlank).length

theorem length_skip_le (c : Cursor) (n : Nat) : (c.skip n).rest.length ≤ c.rest.length := by
  simp [skip]

end Cursor

structure Arguments where
  optional : List Text
  mandatory : List Span
  /-- Just past the last group. -/
  stop : Nat
  deriving DecidableEq, Repr

namespace Arguments

/-- The bracket groups from a cursor on, and the cursor past them and the blanks around them. -/
def brackets (construct : Text) (c : Cursor) : Except Malformed (List Text × Cursor) :=
  match _h : c.rest with
  | '[' :: t =>
    match bracketLength? 0 t with
    | none => .error ⟨construct, c.pos, .openBracket⟩
    | some n =>
      (brackets construct (c.skip (n + 2)).skipBlanks).map fun (more, c') => (t.take n :: more, c')
  | _ => .ok ([], c)
termination_by c.rest.length
decreasing_by
  have := (c.skip (n + 2)).length_skip_le
    ((c.skip (n + 2)).rest.takeWhile Text.isAsciiBlank).length
  simp only [Cursor.skipBlanks, Cursor.skip, _h, List.length_drop, List.length_cons] at this ⊢
  omega

/-- `count` brace groups, each after optional blanks; nothing when there are fewer. -/
def braces (construct : Text) : Nat → Cursor → Except Malformed (Option (List Span × Nat))
  | 0, c => .ok (some ([], c.pos))
  | count + 1, c =>
    let c := c.skipBlanks
    match c.rest with
    | '{' :: t =>
      match braceLength? 0 t with
      | none => .error ⟨construct, c.pos, .openBrace⟩
      | some n =>
        (braces construct count (c.skip (n + 2))).map <| Option.map fun (more, stop) =>
          (⟨c.pos + 1, c.pos + 1 + n⟩ :: more, stop)
    | _ => .ok none

/-- Nothing when fewer than `count` brace groups follow: the command is mentioned, not used. -/
def read (construct : Text) (count : Nat) (c : Cursor) : Except Malformed (Option Arguments) := do
  let (optional, c) ← brackets construct c.skipBlanks
  let groups ← braces construct count c
  return groups.map fun (mandatory, stop) => ⟨optional, mandatory, stop⟩

end Arguments

end FloatFlattening
