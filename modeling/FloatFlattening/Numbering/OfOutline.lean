import FloatFlattening.Numbering.Basic
import FloatFlattening.Outline.Basic
/-!
The numbering of a whole document, from its outline. A figure is numbered where it begins, so its
own label comes before those of its panels even if it is written after them.
-/

namespace FloatFlattening

/-- A place of a document where numbers are given out. -/
inductive Site
  | figure (f : Figure)
  | mark (m : Mark)
  deriving Repr

namespace Site

/-- Figures and marks in the order in which they begin, a figure before a mark at its start. -/
def merge : List Figure → List Mark → List Site
  | fs, [] => fs.map figure
  | fs, m :: ms =>
    let before := fs.takeWhile (·.span.start ≤ m.span.start)
    before.map figure ++ mark m :: merge (fs.drop before.length) ms

end Site

namespace Numbering

/-- Registers a panel: its own label and further ones, or just its seat. -/
def visitPanel (t : Text) (figure : Text) (p : Panel) : Change Unit :=
  match p.marks with
  | [] => discard <| reserve figure (t.lineOf p.span.start)
  | own :: further => do
    discard <| register own.id .panel (some figure) own.line
    further.forM fun m => discard <| registerAlias m.id own.id m.line

def visitFigure (t : Text) (f : Figure) : Change Unit :=
  match f.name.id? with
  | none => return
  | some id => do
    let line := (f.mainMark?.map Mark.line).getD (t.lineOf f.span.start)
    discard <| register id .figure none line
    f.panels.forM (visitPanel t id)

/-- A mark is registered with its figure when it names the figure or belongs to a panel. -/
def IsVisitedWith (f : Figure) (m : Mark) : Prop :=
  (∃ p ∈ f.panels, ∃ own ∈ p.marks, own.span = m.span) ∨ f.mainMark?.any (·.span = m.span)

instance (f : Figure) (m : Mark) : Decidable (IsVisitedWith f m) :=
  inferInstanceAs (Decidable (_ ∨ _))

def visitMark (o : Outline) (m : Mark) : Change Unit :=
  if let some f := o.figureAt? m.span.start then
    if IsVisitedWith f m then return
    else
      match f.name.id? with
      | some id => discard <| registerAlias m.id id m.line
      | none => discard <| register m.id .figure none m.line
  else if let some table := o.tableAt? m.span.start then
    match table.marks.head?.filter (·.span ≠ m.span) with
    | some first => discard <| registerAlias m.id first.id m.line
    | none => discard <| register m.id .table none m.line
  else
    let kind := if o.inEquation m.span.start then .equation else .heading
    discard <| register m.id kind none m.line

def visit (o : Outline) : Site → Change Unit
  | .figure f => visitFigure o.text f
  | .mark m => visitMark o m

def ofOutline (o : Outline) : Except Fault Numbering :=
  match ((Site.merge o.figures o.marks).forM (visit o)).run empty with
  | .ok _ n => .ok n
  | .error f _ => .error f

end Numbering

end FloatFlattening
