import FloatFlattening.Outline.Panel
/-!
Figures, with what belongs to their panels told apart from what belongs to the figure itself.
-/

namespace FloatFlattening

/-- What a float is called: by a label of its own, or, when it has none and one is needed, by a
label made for it. -/
inductive FloatName
  | unnamed
  | labelled (id : Text)
  | synthetic (id : Text)
  deriving DecidableEq, Repr

namespace FloatName

def id? : FloatName → Option Text
  | unnamed => none
  | labelled id | synthetic id => some id

def isSynthetic : FloatName → Bool
  | synthetic _ => true
  | _ => false

def ofMark? : Option Mark → FloatName
  | none => unnamed
  | some m => labelled m.id

end FloatName

structure Figure where
  span : Span
  body : Span
  panels : List Panel
  /-- All images of the body. -/
  graphics : List Graphic
  /-- The captions outside panels. -/
  captions : List Command
  /-- The marks outside panels; the last names the figure. -/
  marks : List Mark
  name : FloatName
  deriving DecidableEq, Repr

namespace Figure

def IsMulti (f : Figure) : Prop := 2 ≤ f.panels.length ∨ 2 ≤ f.graphics.length

instance (f : Figure) : Decidable f.IsMulti := inferInstanceAs (Decidable (_ ∨ _))

def caption? (f : Figure) : Option Text := f.captions.getLast?.map (·.argument)

/-- The mark that names the figure. -/
def mainMark? (f : Figure) : Option Mark :=
  if f.name.isSynthetic then none else f.marks.getLast?

/-- Panels can only be told apart by the number of a named figure. -/
def NeedsName (f : Figure) : Prop := f.IsMulti ∨ ∃ p ∈ f.panels, p.marks ≠ []

instance (f : Figure) : Decidable f.NeedsName := inferInstanceAs (Decidable (_ ∨ _))

def InPanel (panels : List Panel) (s : Span) : Prop :=
  ∃ p ∈ panels, p.span.Covers s ∨ ∃ m ∈ p.marks, m.span = s

instance (panels : List Panel) (s : Span) : Decidable (InPanel panels s) :=
  inferInstanceAs (Decidable (∃ _ ∈ _, _))

def ofEnvironment (t : Text) (e : Environment) : Except Fault Figure := do
  let graphics ← (Graphic.inSpan t e.body).complete t
  let marks ← (Mark.inSpan t e.body).complete t
  let captions ← (Command.inSpan t e.body ["caption"]).complete t
  let written ← Panel.written t e.body
  let panels :=
    if written = [] ∧ 2 ≤ graphics.length then Panel.bare e.body.stop marks captions graphics
    else written.map (Panel.claimMarks marks)
  let outer := marks.filter fun m => !decide (InPanel panels m.span)
  return { span := e.span, body := e.body, panels, graphics
           captions := captions.filter fun c => !decide (InPanel panels c.span)
           marks := outer, name := .ofMark? outer.getLast? }

end Figure

end FloatFlattening
