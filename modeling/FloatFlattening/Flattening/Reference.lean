import FloatFlattening.Markup.Mark
import FloatFlattening.Numbering.Basic
/-!
What becomes of a reference when floats are flattened: one to a panel of a flattened figure names
the figure and the panel's letter, one to a further name of a flattened float names the float by
its own label, and all others stay as they are.
-/

namespace FloatFlattening

namespace Numbering

/-- The label behind `count` further names. -/
def follow (n : Numbering) : (count : Nat) → Label → Label
  | 0, l => l
  | count + 1, l =>
    match l.aliasOf.bind n.get? with
    | none => l
    | some target => n.follow count target

/-- The label that a name stands for in the end; a name is rarely more than one step away. -/
def rootOf (n : Numbering) (l : Label) : Label := n.follow 8 l

end Numbering

def Reference.markup (target : Text) : Text := "\\ref\x7b" ++ target ++ "\x7d"

/-- A panel of a flattened figure: the figure and the panel's letter. -/
def Label.flattenedPanel? (flattened : List Text) (root : Label) : Option (Text × Char) :=
  match root.kind, root.parent, root.letter with
  | .panel, some figure, some letter => if figure ∈ flattened then some (figure, letter) else none
  | _, _, _ => none

/-- The markup that takes the place of a reference to a label, when one does. -/
def Numbering.exchanged? (n : Numbering) (flattened : List Text) (l : Label) : Option Text :=
  let root := n.rootOf l
  match root.flattenedPanel? flattened with
  | some (figure, letter) => some (Reference.markup figure ++ "(" ++ [letter] ++ ")")
  | none =>
    if l.aliasOf.isSome ∧ root.id ∈ flattened then some (Reference.markup root.id) else none

inductive Visit.Fate
  /-- No label has the name. -/
  | dangling
  | kept
  | exchanged (markup : Text)
  deriving DecidableEq, Repr

/-- A reference met on the way through a document. -/
structure Visit where
  target : Text
  line : Nat
  fate : Visit.Fate
  deriving DecidableEq, Repr

namespace Visit

def of (n : Numbering) (flattened : List Text) (target : Text) (line : Nat) : Visit :=
  match n.get? target with
  | none => ⟨target, line, .dangling⟩
  | some l =>
    match n.exchanged? flattened l with
    | none => ⟨target, line, .kept⟩
    | some markup => ⟨target, line, .exchanged markup⟩

/-- What stands in the new document for a reference written as `source`. -/
def markup (v : Visit) (source : Text) : Text :=
  match v.fate with
  | .exchanged markup => markup
  | _ => source

def isExchanged (v : Visit) : Bool :=
  match v.fate with
  | .exchanged _ => true
  | _ => false

def dangling? (v : Visit) : Option Dangling :=
  match v.fate with
  | .dangling => some ⟨v.target, v.line⟩
  | _ => none

end Visit

/-- The first of each group that has the same target. -/
def Dangling.firsts : List Dangling → List Dangling
  | [] => []
  | d :: ds => d :: (firsts ds).filter (·.target ≠ d.target)

end FloatFlattening
