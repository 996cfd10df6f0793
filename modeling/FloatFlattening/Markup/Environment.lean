import FloatFlattening.Markup.Command
/-!
Environments, as pairs of `\begin` and `\end` commands of one name. Environments of the same name
nest; of the listed names only the outermost are found.
-/

namespace FloatFlattening

structure Environment where
  name : Text
  /-- From `\begin` through the brace that closes `\end`. -/
  span : Span
  /-- Between the two commands. -/
  body : Span
  deriving DecidableEq, Repr

namespace Environment

/-- The `\end` of an environment with `depth` of its name open inside it, and the commands after
it. -/
def ending? (name : Text) : Nat → List Command → Option (Command × List Command)
  | _, [] => none
  | depth, c :: cs =>
    if c.argument.trim ≠ name then ending? name depth cs
    else if c.name = "begin" then ending? name (depth + 1) cs
    else
      match depth with
      | 0 => some (c, cs)
      | depth + 1 => ending? name depth cs

theorem length_ending? {name : Text} {depth : Nat} {cs rest : List Command} {e : Command}
    (h : ending? name depth cs = some (e, rest)) : rest.length < cs.length := by
  fun_induction ending? name depth cs with
  | case1 => simp at h
  | case2 _ _ _ _ ih | case3 _ _ _ _ _ ih | case5 _ _ _ _ _ ih =>
    have := ih h
    simp only [List.length_cons]
    omega
  | case4 => simp_all

/-- The outermost environments of the listed names among the `\begin` and `\end` commands of a
text whose search `stopped` as given. -/
def pair (names : List Text) (stopped : Option Malformed) : List Command → Scan Environment
  | [] => ⟨[], stopped⟩
  | c :: cs =>
    if c.name = "begin" ∧ c.argument.trim ∈ names then
      let name := c.argument.trim
      match _h : ending? name 0 cs with
      | some (e, rest) =>
        (pair names stopped rest).cons
          ⟨name, ⟨c.span.start, e.span.stop⟩, ⟨c.span.stop, e.span.start⟩⟩
      | none =>
        .stop <| stopped.getD
          ⟨"\\begin\x7b" ++ name ++ "\x7d", c.span.start, .openEnvironment name⟩
    else pair names stopped cs
termination_by cs => cs.length
decreasing_by
  · have := length_ending? _h
    simp only [List.length_cons]
    omega
  · simp

def ofCommands (names : List Text) (s : Scan Command) : Scan Environment :=
  pair names s.stopped s.found

def inSpan (t : Text) (s : Span) (names : List Text) : Scan Environment :=
  ofCommands names (Command.inSpan t s ["begin", "end"])

def all (t : Text) (names : List Text) : Scan Environment :=
  ofCommands names (Command.all t ["begin", "end"])

end Environment

end FloatFlattening
