import FloatFlattening.Report.Shortest
import FloatFlattening.Text.Search
/-!
JSON values and their text over several lines.
-/

namespace FloatFlattening.Report

inductive Json
  | null
  | bool (b : Bool)
  | natural (n : Nat)
  | real (x : Float)
  | text (t : Text)
  | list (items : List Json)
  | object (fields : List (Text × Json))

namespace Json

def option (f : α → Json) : Option α → Json
  | none => null
  | some a => f a

/-- Numbers between these powers of ten are written without an exponent. -/
def leastPoint : Int := -5

def greatestPoint : Int := 16

def zeros (n : Int) : Text := List.replicate n.toNat '0'

def digitsText (d : Digits) : Text :=
  let size : Int := d.digits.length
  if size ≤ d.point ∧ d.point ≤ greatestPoint then d.digits ++ zeros (d.point - size) ++ ".0"
  else if 0 < d.point ∧ d.point ≤ greatestPoint then
    d.digits.take d.point.toNat ++ "." ++ d.digits.drop d.point.toNat
  else if leastPoint < d.point ∧ d.point ≤ 0 then "0." ++ zeros (-d.point) ++ d.digits
  else
    let fraction : Text := if d.digits.tail.isEmpty then [] else '.' :: d.digits.tail
    d.digits.take 1 ++ fraction ++ "e" ++ Text.ofInt (d.point - 1)

/-- JSON has no text for what is no finite number. -/
def realText (x : Float) : Text :=
  if !x.isFinite then "null"
  else
    let size : Text := if x == 0 then "0.0" else digitsText (.shortest (.ofFloat x))
    if x.toBits.toNat < 2 ^ 63 then size else '-' :: size

def escapes : List (Char × Text) := [
  ('"', "\\\""), ('\\', "\\\\"), ('\x08', "\\b"), ('\x0c', "\\f"), ('\n', "\\n"), ('\r', "\\r"),
  ('\t', "\\t")]

def charText (c : Char) : Text :=
  match escapes.lookup c with
  | some t => t
  | none =>
    if c.toNat < 0x20 then
      let digits := Nat.toDigits 16 c.toNat
      "\\u" ++ List.replicate (4 - digits.length) '0' ++ digits
    else [c]

def quoted (t : Text) : Text := "\"" ++ t.flatMap charText ++ "\""

/-- Items between brackets, each on a line of its own. -/
def block (left right indent : Text) : List Text → Text
  | [] => left ++ right
  | items =>
    let inner : Text := "\n" ++ indent ++ "  "
    left ++ inner ++ Text.joinWith ("," ++ inner) items ++ "\n" ++ indent ++ right

mutual

def print (indent : Text) : Json → Text
  | null => "null"
  | bool b => if b then "true" else "false"
  | natural n => Text.ofNat n
  | real x => realText x
  | text t => quoted t
  | list items => block "[" "]" indent (printItems (indent ++ "  ") items)
  | object fields => block "\x7b" "\x7d" indent (printFields (indent ++ "  ") fields)

def printItems (indent : Text) : List Json → List Text
  | [] => []
  | j :: js => print indent j :: printItems indent js

def printFields (indent : Text) : List (Text × Json) → List Text
  | [] => []
  | (key, j) :: js => (quoted key ++ ": " ++ print indent j) :: printFields indent js

end

end Json

end FloatFlattening.Report
