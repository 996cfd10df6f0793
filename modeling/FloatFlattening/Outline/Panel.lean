import FloatFlattening.Outline.Graphic
import FloatFlattening.Markup.Environment
import FloatFlattening.Markup.Mark
/-!
The panels of a figure: a command, an environment or, in a figure that has neither, each of
several images. A panel written inside another belongs to it.
-/

namespace FloatFlattening

inductive Panel.Form
  | subfloat
  | subfigureCommand
  | subfigureEnvironment
  | bare
  deriving DecidableEq, Repr

structure Panel where
  form : Panel.Form
  span : Span
  /-- The share of the line width that the panel declares. -/
  share : Option Decimal
  graphics : List Graphic
  /-- The first is the panel's own. -/
  marks : List Mark
  deriving DecidableEq, Repr

namespace Panel

def label? (p : Panel) : Option Text := p.marks.head?.map Mark.id

def ofCommand (t : Text) (c : Command) : Except Fault Panel := do
  let graphics ← (Graphic.inSpan t c.span).complete t
  let form := if c.name = "subfloat" then .subfloat else .subfigureCommand
  return { form, span := c.span, share := none, graphics, marks := [] }

/-- The brace group after `\begin{subfigure}` is the width. -/
def ofEnvironment (t : Text) (e : Environment) : Except Fault Panel := do
  let width? ←
    match Arguments.read "\\begin\x7bsubfigure\x7d" 1 (.ofPosition t e.body.start) with
    | .error m => throw (m.fault t)
    | .ok arguments => pure (arguments.bind (·.mandatory.head?))
  let graphics ← (Graphic.inSpan t e.body).complete t
  return { form := .subfigureEnvironment, span := e.span
           share := width?.bind fun s => Length.share? (t.slice s), graphics, marks := [] }

/-- Those not inside an earlier one. -/
def outermost : List Panel → List Panel
  | [] => []
  | p :: ps => p :: (outermost ps).filter fun q => !decide (p.span.Covers q.span)

def claimMarks (marks : List Mark) (p : Panel) : Panel :=
  { p with marks := marks.filter fun m => p.span.Covers m.span }

/-- The panels of a figure's body that commands and environments make. -/
def written (t : Text) (body : Span) : Except Fault (List Panel) := do
  let commands ← (Command.inSpan t body ["subfloat", "subfigure"]).traverse t (ofCommand t)
  let environments ← (Environment.inSpan t body ["subfigure"]).traverse t (ofEnvironment t)
  return outermost <|
    (commands ++ environments).mergeSort fun p q => p.span.start ≤ q.span.start

/-- One panel an image. It owns the first mark between its image and the next one or `stop`,
unless a caption comes before the mark: then the mark names the figure. -/
def bare (stop : Nat) (marks : List Mark) (captions : List Command) : List Graphic → List Panel
  | [] => []
  | g :: gs =>
    let next := (gs.head?.map (·.span.start)).getD stop
    let first? := marks.find? fun m => g.span.stop ≤ m.span.start && m.span.stop ≤ next
    let own? := first?.filter fun m =>
      !captions.any fun c => g.span.stop ≤ c.span.start && c.span.start < m.span.start
    { form := .bare, span := g.span, share := none, graphics := [g], marks := own?.toList } ::
      bare stop marks captions gs

end Panel

end FloatFlattening
