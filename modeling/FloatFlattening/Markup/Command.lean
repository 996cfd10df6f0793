import FloatFlattening.Markup.Arguments
/-!
Commands with one mandatory argument, such as `\caption[short]{long}`. A control word is a
backslash and the letters after it; a backslash before any other character takes that character
with it.
-/

namespace FloatFlattening

structure Command where
  name : Text
  starred : Bool
  /-- From the backslash through the brace that closes the argument. -/
  span : Span
  optional : List Text
  argument : Text
  argumentSpan : Span
  deriving DecidableEq, Repr

namespace Command

/-- The command whose control word has just been read: `start` is where its backslash stands. -/
def afterName? (name : Text) (start : Nat) (c : Cursor) : Except Malformed (Option Command) :=
  let starred := c.rest.head? = some '*'
  let c := if starred then c.skip 1 else c
  (Arguments.read ('\\' :: name) 1 c).map fun arguments? =>
    arguments?.bind fun arguments =>
      arguments.mandatory.head?.map fun inner =>
        { name, starred, span := ⟨start, arguments.stop⟩, optional := arguments.optional
          argument := (c.rest.drop (inner.start - c.pos)).take (inner.stop - inner.start)
          argumentSpan := inner }

/-- The uses of the named commands from a position on; a command inside another's span is not
looked at. -/
def scan (names : List Text) (pos : Nat) : Text → Scan Command
  | [] => .done
  | c :: t =>
    if c = '\\' then
      match t with
      | [] => .done
      | d :: t' =>
        if d.isAlpha then
          let name := (d :: t').takeWhile Char.isAlpha
          let stop := pos + 1 + name.length
          let after := (d :: t').drop name.length
          match if name ∈ names then afterName? name pos ⟨stop, after⟩ else .ok none with
          | .error m => .stop m
          | .ok none => scan names stop after
          | .ok (some command) =>
            (scan names command.span.stop ((d :: t').drop (command.span.stop - pos - 1))).cons command
        else scan names (pos + 2) t'
    else scan names (pos + 1) t
termination_by t => t.length
decreasing_by
  all_goals simp only [List.length_drop, List.length_cons]; omega

def inSpan (t : Text) (s : Span) (names : List Text) : Scan Command :=
  scan names s.start (t.slice s)

def all (t : Text) (names : List Text) : Scan Command := scan names 0 t

end Command

end FloatFlattening
