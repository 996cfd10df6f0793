import FloatFlattening.Block.Stem
import FloatFlattening.Numbering.Label
import FloatFlattening.Outline.Basic
/-!
Blocks: the floats that are typeset by themselves and then stand as one image each. These are the
figures with several panels or images and, if asked for, the tables.
-/

namespace FloatFlattening

/-- The width of an image as a share of the line width: its own share of that of its panel. -/
structure Share where
  panel : Option Decimal
  own : Decimal
  deriving DecidableEq, Repr

def Share.toFloat (s : Share) : Float :=
  match s.panel with
  | none => s.own.toFloat
  | some panel => panel.toFloat * s.own.toFloat

/-- An image of a block, with the label and letter of the panel it is in. -/
structure Block.Image where
  path : Text
  share : Option Share
  label : Option Text
  letter : Option Char
  deriving DecidableEq, Repr

inductive Block.Kind
  | figure
  | table
  deriving DecidableEq, Repr

structure Block where
  kind : Block.Kind
  /-- The whole environment. -/
  span : Span
  line : Nat
  images : List Block.Image
  caption : Option Text
  name : FloatName
  stem : Text
  /-- The body of the float as it is typeset by itself. -/
  body : Text
  deriving DecidableEq, Repr

namespace Block

/-- The block in messages. -/
def subject (b : Block) : Text := b.name.id?.getD ("table at line " ++ Text.ofNat b.line)

/-- The image that stands for the block, as the document refers to it. -/
def imagePath (directory : Text) (b : Block) : Text := directory ++ "/" ++ b.stem ++ ".png"

/-- Where a float's body begins after its placement option `[…]`, if it has one. -/
def bodyStart (t : Text) (body : Span) : Nat :=
  let whole := t.slice body
  let rest := whole.trimStart
  match rest with
  | '[' :: _ =>
    let option := rest.takeWhile (· ≠ ']')
    if option.length < rest.length then body.start + (whole.length - rest.length) + option.length + 1
    else body.start
  | _ => body.start

/-- The text from `last` to `stop` outside the given spans, which come in the order of their
starts; a span that begins inside an earlier one is passed over. -/
def outside (t : Text) (stop : Nat) : (last : Nat) → List Span → Text
  | last, [] => t.slice ⟨last, stop⟩
  | last, s :: ss =>
    if s.start < last then outside t stop last ss
    else t.slice ⟨last, s.start⟩ ++ outside t stop s.stop ss

def continuedFloat : Pattern := .word "\\ContinuedFloat" ++ .wordEnd ++ .blanks

/-- A float's body without its placement option, the given spans and `\ContinuedFloat`. -/
def bodyWithout (t : Text) (body : Span) (removed : List Span) : Text :=
  let start := bodyStart t body
  let removed := removed.filter fun s => start ≤ s.start && s.stop ≤ body.stop
  let kept := outside t body.stop start (removed.mergeSort fun r s => r.start ≤ s.start)
  continuedFloat.erase (Text.trim kept)

/-- An image inside a panel that declares a width has a share only if it states one too. -/
def shareInPanel (p : Panel) (g : Graphic) : Option Share := g.share.map (⟨p.share, ·⟩)

def imagesOfPanel (t : Text) (p : Panel) (position : Nat) : Except Fault (List Image) :=
  match Panel.letter? position with
  | none =>
    throw <| .malformed "\\subfloat" (t.lineOf p.span.start)
      ("more than " ++ Text.ofNat Panel.maxCount ++ " panels in one figure")
  | some letter =>
    return p.graphics.map fun g => ⟨g.path, shareInPanel p g, p.label?, letter⟩

def imagesOfFigure (t : Text) (f : Figure) : Except Fault (List Image) :=
  if f.panels.isEmpty then
    return f.graphics.map fun g => ⟨g.path, g.share.map (⟨none, ·⟩), none, none⟩
  else
    return (← f.panels.zipIdx.mapM fun (p, position) => imagesOfPanel t p position).flatten

/-- The block of a figure, with the stem that it gets if no other block has it. -/
def ofFigure (t : Text) (f : Figure) : Except Fault Block := do
  return {
    kind := .figure, span := f.span, line := t.lineOf f.span.start
    images := ← imagesOfFigure t f
    caption := f.caption?, name := f.name
    stem := "multifig_" ++ Stem.ofLabel (f.name.id?.getD "unnamed")
    body := bodyWithout t f.body (f.captions.map (·.span)) }

/-- The block of the table at a position among the tables of the document. -/
def ofTable (t : Text) (table : Table) (position : Nat) : Except Fault Block := do
  let graphics ← (Graphic.inSpan t table.body).complete t
  return {
    kind := .table, span := table.span, line := t.lineOf table.span.start
    images := graphics.map fun g => ⟨g.path, none, none, none⟩
    caption := table.caption?, name := .ofMark? table.marks.head?
    stem := "multitab_" ++ (table.label?.map Stem.ofLabel).getD (Text.ofNat (position + 1))
    body :=
      bodyWithout t table.body (table.captions.map (·.span) ++ table.marks.map (·.span)) }

/-- Gives each block a stem of its own. -/
def separateStems : (used : List Text) → List Block → List Block
  | _, [] => []
  | used, b :: bs =>
    let stem := Stem.fresh used b.stem
    { b with stem } :: separateStems (stem :: used) bs

/-- In the order of the document. -/
def ofOutline (withTables : Bool) (o : Outline) : Except Fault (List Block) := do
  let figures ← o.multiFigures.mapM (ofFigure o.text)
  let tables ←
    if withTables then o.tables.zipIdx.mapM fun (table, i) => ofTable o.text table i else pure []
  return (separateStems [] (figures ++ tables)).mergeSort fun a b => a.span.start ≤ b.span.start

end Block

end FloatFlattening
