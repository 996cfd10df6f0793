import FloatFlattening.Markup.Environment
import FloatFlattening.Markup.Mark
/-!
Tables; the first mark of one is its own.
-/

namespace FloatFlattening

structure Table where
  span : Span
  body : Span
  captions : List Command
  marks : List Mark
  deriving DecidableEq, Repr

namespace Table

def caption? (table : Table) : Option Text := table.captions.getLast?.map (·.argument)

def label? (table : Table) : Option Text := table.marks.head?.map Mark.id

def ofEnvironment (t : Text) (e : Environment) : Except Fault Table := do
  let captions ← (Command.inSpan t e.body ["caption"]).complete t
  let marks ← (Mark.inSpan t e.body).complete t
  return ⟨e.span, e.body, captions, marks⟩

end Table

end FloatFlattening
