import FloatFlattening.Markup.Command
/-!
The two ends of a cross-reference as they stand in a text: a `\label` sets a mark, and a reference
names one.
-/

namespace FloatFlattening

structure Mark where
  span : Span
  id : Text
  line : Nat
  deriving DecidableEq, Repr

def Mark.ofCommand (t : Text) (c : Command) : Mark := ⟨c.span, c.argument.trim, t.lineOf c.span.start⟩

def Mark.inSpan (t : Text) (s : Span) : Scan Mark :=
  (Command.inSpan t s ["label"]).map (Mark.ofCommand t)

def Mark.all (t : Text) : Scan Mark := (Command.all t ["label"]).map (Mark.ofCommand t)

inductive Reference.Style
  | plain
  | equation
  | panel
  deriving DecidableEq, Repr

structure Reference where
  span : Span
  target : Text
  style : Reference.Style
  line : Nat
  deriving DecidableEq, Repr

namespace Reference

def commandNames : List Text := ["ref", "eqref", "subref"]

def Style.ofName (name : Text) : Style :=
  if name = "eqref" then equation else if name = "subref" then panel else plain

def ofCommand (t : Text) (c : Command) : Reference :=
  ⟨c.span, c.argument.trim, .ofName c.name, t.lineOf c.span.start⟩

def inSpan (t : Text) (s : Span) : Scan Reference :=
  (Command.inSpan t s commandNames).map (ofCommand t)

def all (t : Text) : Scan Reference := (Command.all t commandNames).map (ofCommand t)

end Reference

end FloatFlattening
