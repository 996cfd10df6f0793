import FloatFlattening.Outline.Length
import FloatFlattening.Markup.Command
/-!
The images that a text shows with `\includegraphics`.
-/

namespace FloatFlattening

structure Graphic where
  span : Span
  path : Text
  /-- The share of the line width that its options ask for. -/
  share : Option Decimal
  deriving DecidableEq, Repr

namespace Graphic

def ofCommand (c : Command) : Graphic :=
  ⟨c.span, c.argument.trim, Length.shareOfOptions? c.optional⟩

def inSpan (t : Text) (s : Span) : Scan Graphic :=
  (Command.inSpan t s ["includegraphics"]).map ofCommand

end Graphic

end FloatFlattening
