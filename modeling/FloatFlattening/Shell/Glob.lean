import FloatFlattening.Text.Basic
import FloatFlattening.Text.Utf8
/-!
Patterns of the shell, in which `*` stands for any text, `?` for any character and brackets for one
of those in them. A quoted character stands for itself.
-/

namespace FloatFlattening.Shell.Glob

/-- A character of a pattern. -/
structure Mark where
  char : Char
  quoted : Bool
  deriving DecidableEq, Repr

abbrev Pattern := List Mark

def text (p : Pattern) : Text := p.map (·.char)

/-- What a character of a text may be. -/
structure Range where
  inverted : Bool
  between : List (Char × Char)
  classes : List Text
  deriving DecidableEq, Repr

inductive Atom
  | many
  | one
  | char (c : Char)
  | range (r : Range)
  deriving DecidableEq, Repr

def classTests : List (Text × (Char → Bool)) := [
  ("alpha", Char.isAlpha), ("digit", Char.isDigit), ("alnum", Char.isAlphanum),
  ("upper", Char.isUpper), ("lower", Char.isLower), ("blank", fun c => c = ' ' || c = '\t'),
  ("space", fun c => c = ' ' || (9 ≤ c.toNat && c.toNat ≤ 13)),
  ("punct", fun c => 32 < c.toNat && c.toNat < 127 && !c.isAlphanum),
  ("xdigit", fun c => c.isDigit || ('a' ≤ c && c ≤ 'f') || ('A' ≤ c && c ≤ 'F')),
  ("print", fun c => 32 ≤ c.toNat && c.toNat < 127),
  ("graph", fun c => 32 < c.toNat && c.toNat < 127),
  ("cntrl", fun c => c.toNat < 32 || c.toNat = 127)]

namespace Range

def holds (r : Range) (c : Char) : Bool :=
  (r.between.any (fun (a, b) => a ≤ c && c ≤ b) ||
    r.classes.any fun k => ((classTests.lookup k).map (· c)).getD false) != r.inverted

/-- The name of a class at the beginning, after its bracket and colon, and what follows it. -/
def class? (p : Pattern) : Option (Text × Pattern) :=
  match p with
  | m :: rest =>
    if m.char = ':' then
      let name := (rest.takeWhile (·.char ≠ ':')).map (·.char)
      match rest.drop name.length with
      | _ :: close :: after =>
        if close.char = ']' ∧ (classTests.lookup name).isSome then some (name, after) else none
      | _ => none
    else none
  | [] => none

/-- The inside of brackets up to the closing one, which cannot come `first`, and what follows it. -/
def read : (fuel : Nat) → (first : Bool) → Range → Pattern → Option (Range × Pattern)
  | 0, _, _, _ | _, _, _, [] => none
  | fuel + 1, first, r, m :: p =>
    if m.char = ']' ∧ !m.quoted ∧ !first then some (r, p)
    else
      match if m.char = '[' ∧ !m.quoted then class? p else none with
      | some (name, after) => read fuel false { r with classes := name :: r.classes } after
      | none =>
        match p with
        | dash :: last :: after =>
          if dash.char = '-' ∧ !dash.quoted ∧ (last.char ≠ ']' ∨ last.quoted) then
            read fuel false { r with between := (m.char, last.char) :: r.between } after
          else read fuel false { r with between := (m.char, m.char) :: r.between } p
        | _ => read fuel false { r with between := (m.char, m.char) :: r.between } p

end Range

def atoms : (fuel : Nat) → Pattern → List Atom
  | 0, _ | _, [] => []
  | fuel + 1, m :: p =>
    if m.quoted then .char m.char :: atoms fuel p
    else if m.char = '*' then .many :: atoms fuel p
    else if m.char = '?' then .one :: atoms fuel p
    else if m.char = '[' then
      let inverted := p.head? = some ⟨'!', false⟩
      match Range.read p.length true ⟨inverted, [], []⟩ (if inverted then p.tail else p) with
      | some (r, after) => .range r :: atoms fuel after
      | none => .char '[' :: atoms fuel p
    else .char m.char :: atoms fuel p

/-- Whether atoms stand for all of a text. -/
def matched : List Atom → Text → Bool
  | [], t => t.isEmpty
  | .many :: p, [] => matched p []
  | .many :: p, c :: t => matched p (c :: t) || matched (.many :: p) t
  | _ :: _, [] => false
  | .one :: p, _ :: t => matched p t
  | .char x :: p, c :: t => x = c && matched p t
  | .range r :: p, c :: t => r.holds c && matched p t
termination_by p t => (p.length, t.length)

/-- A pattern of bytes, which is what patterns are about, each as the character of its number. -/
def Pattern.bytewise (p : Pattern) : Pattern :=
  p.flatMap fun m => (Text.toBytes [m.char]).map fun b => ⟨Char.ofNat b.toNat, m.quoted⟩

def bytewise (t : Text) : Text := t.toBytes.map fun b => Char.ofNat b.toNat

def fits (p : Pattern) (t : Text) : Bool :=
  let p := p.bytewise
  matched (atoms p.length p) (bytewise t)

/-- Whether a pattern may stand for something other than itself. -/
def isOpen (p : Pattern) : Bool :=
  p.any fun m => !m.quoted && (m.char = '*' || m.char = '?' || m.char = '[')

/-- The text without an end, or a beginning if `first`, that fits; the shortest or the longest. -/
def drop (p : Pattern) (t : Text) (longest first : Bool) : Text :=
  let p := p.bytewise
  let as := atoms p.length p
  let t := bytewise t
  let sizes := List.range (t.length + 1)
  let sizes := if longest then sizes.reverse else sizes
  let cut (n : Nat) : Option Text :=
    if first then if matched as (t.take n) then some (t.drop n) else none
    else if matched as (t.drop (t.length - n)) then some (t.take (t.length - n)) else none
  Text.ofBytes (((sizes.findSome? cut).getD t).map (·.toNat.toUInt8))

end FloatFlattening.Shell.Glob
