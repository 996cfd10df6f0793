import FloatFlattening.Markup.GraphicsPath
import FloatFlattening.Markup.PanelPackage
import FloatFlattening.Outline.Figure
import FloatFlattening.Outline.Table
import FloatFlattening.Text.Script
/-!
The outline of a document: its floats, equations and marks. Figures that need a name and have no
mark of their own get a made-up label that no mark of the document has.
-/

namespace FloatFlattening

structure Outline where
  text : Text
  figures : List Figure
  tables : List Table
  equations : List Span
  /-- All marks, in order. -/
  marks : List Mark
  package : PanelPackage
  graphicsPaths : List Text
  needsCjk : Bool
  deriving Repr

namespace Outline

def figureNames : List Text := ["figure", "figure*"]

def tableNames : List Text := ["table", "table*"]

def equationNames : List Text :=
  ["equation", "equation*", "align", "align*", "gather", "gather*", "multline", "multline*",
    "eqnarray", "eqnarray*", "flalign", "flalign*", "alignat", "alignat*"]

def syntheticLabel (k : Nat) : Text := "fig:multifig" ++ Text.ofNat k

/-- The least number above `k` whose label is not taken; one of the first `taken.length + 1`
numbers is free. -/
def nextFree (taken : List Text) (k : Nat) : Nat :=
  ((List.range' (k + 1) (taken.length + 1)).find? (syntheticLabel · ∉ taken)).getD (k + 1)

/-- Names the figures that need it, with numbers above `k`. -/
def nameFigures (taken : List Text) : (k : Nat) → List Figure → List Figure
  | _, [] => []
  | k, f :: fs =>
    if f.name = .unnamed ∧ f.NeedsName then
      let k := nextFree taken k
      { f with name := .synthetic (syntheticLabel k) } :: nameFigures taken k fs
    else f :: nameFigures taken k fs

def ofText (t : Text) : Except Fault Outline := do
  let marks ← (Mark.all t).complete t
  let figures ← (Environment.all t figureNames).traverse t (Figure.ofEnvironment t)
  let tables ← (Environment.all t tableNames).traverse t (Table.ofEnvironment t)
  let equations ← (Environment.all t equationNames).complete t
  let graphicsPaths ← GraphicsPath.ofText t
  return { text := t, figures := nameFigures (marks.map Mark.id) 0 figures, tables
           equations := equations.map (·.span), marks, package := .ofText t, graphicsPaths
           needsCjk := t.needsCjk }

def multiFigures (o : Outline) : List Figure := o.figures.filter (·.IsMulti)

def figureAt? (o : Outline) (pos : Nat) : Option Figure := o.figures.find? (·.span.Holds pos)

def tableAt? (o : Outline) (pos : Nat) : Option Table := o.tables.find? (·.span.Holds pos)

def inEquation (o : Outline) (pos : Nat) : Bool := o.equations.any (·.Holds pos)

end Outline

end FloatFlattening
