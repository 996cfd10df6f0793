import FloatFlattening.Fault
import FloatFlattening.Numbering.Label
/-!
The numbering of a document's labels. A label outside panels takes the next index of its kind; a
panel takes the index of its figure and the letter of the next seat there. A further name for a
label repeats it.
-/

namespace FloatFlattening

structure Numbering where
  /-- In the order of their registration. -/
  labels : List Label
  /-- The figure of each seat taken so far. -/
  seats : List Text
  deriving DecidableEq, Repr

/-- A step of numbering; after a fault the numbering is what it was when the fault arose. -/
abbrev Numbering.Change := EStateM Fault Numbering

namespace Numbering

def empty : Numbering := ⟨[], []⟩

def get? (n : Numbering) (id : Text) : Option Label := n.labels.find? (·.id = id)

def resolve? (n : Numbering) (id : Text) : Option Tag := (n.get? id).map Label.tag

/-- The labelled panels of a figure, in the order of their letters. -/
def children (n : Numbering) (figure : Text) : List Label :=
  n.labels.filter fun l => l.kind = .panel ∧ l.aliasOf = none ∧ l.parent = some figure

def nextIndex (n : Numbering) (kind : Label.Kind) : Nat :=
  n.labels.countP (fun l => l.kind = kind ∧ l.aliasOf = none) + 1

def refuse (line : Nat) (detail : Text) : Change α :=
  throw (.malformed "\\label" line detail)

def requireNew (id : Text) (line : Nat) : Change Unit := do
  if let some first := (← get).get? id then throw (.duplicateLabel id first.line line)

def add (l : Label) : Change Tag := do
  modify fun n => { n with labels := n.labels ++ [l] }
  return l.tag

/-- Takes the next seat at a figure, whose index is given with the seat's position. -/
def takeSeat (figure : Text) (line : Nat) : Change (Nat × Nat) := do
  let n ← get
  match (n.get? figure).filter (·.kind = .figure) with
  | none => refuse line ("subfigure parent '" ++ figure ++ "' is not a registered figure")
  | some l =>
    set { n with seats := n.seats ++ [figure] }
    return (l.index, n.seats.count figure)

/-- The seat is taken also when no letter is left for it. -/
def letterAt (figure : Text) (position line : Nat) : Change Char :=
  match Panel.letter? position with
  | some letter => return letter
  | none =>
    refuse line ("figure '" ++ figure ++ "' has more than " ++ Text.ofNat Panel.maxCount ++ " panels")

def registerPanel (id : Text) (figure : Option Text) (line : Nat) : Change Tag := do
  requireNew id line
  match figure with
  | none => refuse line ("subfigure label '" ++ id ++ "' has no parent figure")
  | some figure =>
    let (index, position) ← takeSeat figure line
    let letter ← letterAt figure position line
    add ⟨id, .panel, figure, index, letter, none, line⟩

/-- Only a panel has a parent. -/
def register (id : Text) (kind : Label.Kind) (parent : Option Text) (line : Nat) : Change Tag := do
  if kind = .panel then registerPanel id parent line
  else
    requireNew id line
    add ⟨id, kind, none, (← get).nextIndex kind, none, none, line⟩

/-- Passes over a panel without a label, so that those after it get the letters of their places. -/
def reserve (figure : Text) (line : Nat) : Change Char := do
  let (_, position) ← takeSeat figure line
  letterAt figure position line

/-- Makes `id` a further name for `target`. -/
def registerAlias (id target : Text) (line : Nat) : Change Tag := do
  requireNew id line
  match (← get).get? target with
  | none => refuse line ("alias target '" ++ target ++ "' is not registered")
  | some l => add { l with id, aliasOf := some target, line }

end Numbering

end FloatFlattening
