import FloatFlattening.Disk.File
import FloatFlattening.Shell.Glob
import FloatFlattening.Shell.Script
import FloatFlattening.Text.Search
/-!
From words whose parts are known to fields. Unquoted values are divided at certain characters, and a
field that is a pattern stands for the paths that fit it.
-/

namespace FloatFlattening.Shell

/-- A piece of a word whose parts are known. -/
inductive Item
  | glyph (c : Char) (quoted divides : Bool)
  /-- Something quoted, so that there is a field even if it is empty. -/
  | mark
  /-- The end of a field. -/
  | gap
  deriving DecidableEq, Repr

namespace Item

/-- A value, which is divided unless it is quoted. -/
def ofValue (quoted : Bool) (t : Text) : List Item := t.map (glyph · quoted !quoted)

/-- All arguments, each a field of its own. -/
def ofArguments (quoted : Bool) (arguments : List Text) : List Item :=
  let one (a : Text) : List Item := (if quoted then [mark] else []) ++ ofValue quoted a
  List.intercalate [gap] (arguments.map one)

def isGapChar (c : Char) : Bool := c = ' ' || c = '\t' || c = '\n'

/-- The fields that items make up; `current` is the one that has begun, from its end, and `ended`
tells that a blank, or the end of an argument, has just ended one. -/
def fields (dividers : Text) : (current : Option Glob.Pattern) → (ended : Bool) → List Item →
    List Glob.Pattern
  | current, _, [] => (current.map List.reverse).toList
  | some f, _, gap :: r => f.reverse :: fields dividers none true r
  | none, ended, gap :: r => fields dividers none ended r
  | current, _, mark :: r => fields dividers (some (current.getD [])) false r
  | current, ended, glyph c quoted divides :: r =>
    if divides ∧ dividers.contains c then
      match current with
      | some f => f.reverse :: fields dividers none (isGapChar c) r
      | none =>
        if isGapChar c then fields dividers none ended r
        else if ended then fields dividers none false r
        else [] :: fields dividers none false r
    else fields dividers (some (⟨c, quoted⟩ :: current.getD [])) false r

/-- The text that items make up where no fields are wanted. -/
def text (separator : Text) (l : List Item) : Text :=
  l.flatMap fun
    | glyph c .. => [c]
    | mark => []
    | gap => separator

/-- The pattern that items make up. -/
def pattern (separator : Text) (l : List Item) : Glob.Pattern :=
  l.flatMap fun
    | glyph c quoted _ => [⟨c, quoted⟩]
    | mark => []
    | gap => separator.map (⟨·, true⟩)

end Item

namespace Glob

/-- The names in a directory that a pattern stands for; a hidden one has to be asked for. -/
def names (d : Disk) (directory : Text) (p : Pattern) : List Text :=
  let place := if directory.isEmpty then ['.'] else directory
  let asked := p.head?.any fun m => m.char = '.'
  let all := (d.list place).toOption.getD [] ++ if asked then [['.'], ['.', '.']] else []
  all.filter fun name => (asked || name.head? ≠ some '.') && fits p name

/-- The paths that the names of a pattern stand for, seen from a place. -/
def follow (d : Disk) (place : Text) : List Pattern → List Text
  | [] => [place]
  | [p] =>
    let found := if isOpen p then names d place p else [text p]
    (found.map (place ++ ·)).filter fun t => (d.locate false t).toOption.bind d.entry? |>.isSome
  | p :: ps =>
    let found := if isOpen p then names d place p else [text p]
    found.flatMap fun name => follow d (place ++ name ++ ['/']) ps

/-- The paths that a field stands for: those that fit it, in order, or else itself. -/
def paths (d : Disk) (p : Pattern) : List Text :=
  if !isOpen p then [text p]
  else
    let found := (follow d [] (p.splitOnP (·.char = '/'))).mergeSort (· ≤ ·)
    if found.isEmpty then [text p] else found

end Glob

/-- A word with the home directory for a `~` at its beginning. -/
def Word.atHome (home : Option Text) : Word → Word
  | .text ('~' :: t) false :: w =>
    match home with
    | some h =>
      if t.isEmpty ∧ w.isEmpty ∨ t.head? = some '/' then .text h true :: .text t false :: w
      else .text ('~' :: t) false :: w
    | none => .text ('~' :: t) false :: w
  | w => w

/-- A value of an assignment, in which a `~` may also come after a colon. -/
def Word.atHomes (home : Option Text) (w : Word) : Word :=
  let rec from' : (first : Bool) → Word → Word
    | first, .text t false :: w =>
      let pieces := t.splitOn ':'
      let piece (p : Text × Nat) : Word :=
        let isInside := p.2 + 1 < pieces.length
        let colon : Word := if 0 < p.2 then [.text [':'] false] else []
        colon ++
          match p.1, home with
          | '~' :: t, some h =>
            if (first || 0 < p.2) && (t.head? = some '/' || (t.isEmpty && (isInside || w.isEmpty)))
            then [.text h true, .text t false] else [.text ('~' :: t) false]
          | t, _ => if t.isEmpty then [] else [.text t false]
      (pieces.zip (List.range pieces.length)).flatMap piece ++ from' false w
    | _, p :: w => p :: from' false w
    | _, [] => []
  from' true w

end FloatFlattening.Shell
