import FloatFlattening.Disk.Basic
import FloatFlattening.Shell.Arithmetic
/-!
Conditions on texts, numbers and files, as lists of words. `-o` binds least, then `-a`, then `!`. A
word that could be an operator is a text where nothing else fits.
-/

namespace FloatFlattening.Shell.Condition

inductive Problem
  | unexpected (word : Text)
  | noArgument (operator : Text)
  | notClosed
  | badNumber (t : Text)
  | notABracket
  deriving DecidableEq, Repr

def Problem.describe : Problem → Text
  | unexpected word => word ++ ": unexpected operator"
  | noArgument operator => operator ++ ": argument expected"
  | notClosed => "closing paren expected"
  | badNumber t => "Illegal number: " ++ t
  | notABracket => "missing ]"

def unary : List Text := ["-r", "-w", "-x", "-e", "-f", "-d", "-c", "-b", "-p", "-u", "-g", "-k", "-s",
  "-t", "-z", "-n", "-h", "-O", "-G", "-L", "-S"].map String.toList

/-- Whether a test of one word holds. -/
def test (d : Disk) (operator a : Text) : Bool :=
  let there := d.find? a
  if operator = "-z" then a.isEmpty
  else if operator = "-n" then !a.isEmpty
  else if operator = "-f" then d.isFile a
  else if operator = "-d" then d.isDirectory a
  else if (["-e", "-r", "-w", "-O", "-G"].map String.toList).contains operator then there.isSome
  else if operator = "-c" then there = some .device
  else if operator = "-s" then
    match there with
    | none | some (.file [] _) | some .device => false
    | _ => true
  else if operator = "-x" then
    match there with
    | none | some (.file _ false) | some .device => false
    | _ => true
  else if operator = "-h" ∨ operator = "-L" then
    match (d.locate false a).toOption.bind d.entry? with
    | some (.link _) => true
    | _ => false
  else false

def numeric : List (Text × (Int → Int → Bool)) := [
  ("-eq", fun a b => a = b), ("-ne", fun a b => a ≠ b), ("-lt", fun a b => a < b),
  ("-le", fun a b => a ≤ b), ("-gt", fun a b => b < a), ("-ge", fun a b => b ≤ a)]

def textual : List (Text × (Text → Text → Bool)) := [
  ("=", fun a b => a = b), ("!=", fun a b => a ≠ b), ("<", fun a b => a < b), (">", fun a b => b < a)]

def ofFiles : List Text := ["-nt", "-ot", "-ef"]

def isBinary (t : Text) : Bool :=
  (numeric.lookup t).isSome || (textual.lookup t).isSome || ofFiles.contains t

def number (t : Text) : Except Problem Int :=
  match Arithmetic.number? t with
  | some n => .ok n
  | none => .error (.badNumber t)

/-- Whether a test of two words holds. All files are of one age. -/
def compare (d : Disk) (a operator b : Text) : Except Problem Bool := do
  match textual.lookup operator, numeric.lookup operator with
  | some f, _ => return f a b
  | none, some f => return f (← number a) (← number b)
  | none, none =>
    let place (p : Text) := (d.locate true p).toOption.filter fun l => (d.entry? l).isSome
    return operator = "-ef" && (place a).isSome && place a = place b

inductive Token
  | finish
  | unaryTest (operator : Text)
  | binaryTest (operator : Text)
  | sign (s : Text)
  | operand
  deriving DecidableEq, Repr

/-- What the first of the words is. -/
def token : List Text → Token
  | [] => .finish
  | w :: rest =>
    if isBinary w then .binaryTest w
    else if unary.contains w then
      let isOperand :=
        match rest with
        | [] => true
        | [_] => false
        | next :: _ => isBinary next
      if isOperand then .operand else .unaryTest w
    else if w = "(" then if rest.isEmpty then .operand else .sign w
    else if w = ")" ∨ w = "!" ∨ w = "-a" ∨ w = "-o" then .sign w
    else .operand

/-- The words from the one that is looked at on. -/
abbrev Reader := StateT (List Text) (Except Problem)

namespace Reader

def advance (n : Nat := 1) : Reader Unit := modify (·.drop n)

/-- The token after the word that is looked at. -/
def after : Reader Token := return token ((← get).drop 1)

def word : Reader Text := return (← get).head?.getD []

variable (d : Disk)

mutual

def disjunction : (fuel : Nat) → Token → Reader Bool
  | 0, _ => throw .notClosed
  | fuel + 1, t => do
    let a ← conjunction fuel t
    if (← after) = .sign "-o" then
      advance 2
      let b ← disjunction fuel (token (← get))
      return a || b
    else return a

def conjunction : (fuel : Nat) → Token → Reader Bool
  | 0, _ => throw .notClosed
  | fuel + 1, t => do
    let a ← negation fuel t
    if (← after) = .sign "-a" then
      advance 2
      let b ← conjunction fuel (token (← get))
      return a && b
    else return a

def negation : (fuel : Nat) → Token → Reader Bool
  | 0, _ => throw .notClosed
  | fuel + 1, t => do
    if t = .sign "!" then
      let next ← after
      if next ≠ .finish then advance
      return !(← negation fuel next)
    else primary fuel t

def primary : (fuel : Nat) → Token → Reader Bool
  | 0, _ => throw .notClosed
  | fuel + 1, t => do
    match t with
    | .finish => return false
    | .unaryTest operator =>
      advance
      if (← get).isEmpty then throw (.noArgument operator)
      return test d operator (← word)
    | _ =>
      if t = .sign "(" then
        advance
        let next := token (← get)
        if next = .sign ")" then return false
        let a ← disjunction fuel next
        advance
        if token (← get) ≠ .sign ")" then throw .notClosed
        return a
      else
        match ← after with
        | .binaryTest operator =>
          let a ← word
          advance 2
          if (← get).isEmpty then throw (.noArgument operator)
          compare d a operator (← word)
        | _ => return !(← word).isEmpty

end

end Reader

/-- Whether words beginning with the given token hold as a condition. -/
def evaluate (d : Disk) (t : Token) (ws : List Text) : Except Problem Bool := do
  let (b, rest) ← (Reader.disjunction d (8 * ws.length + 8) t).run ws
  match rest with
  | w :: _ :: _ => throw (.unexpected w)
  | _ => return b

/-- Whether a condition holds. Three and four words have forms of their own. -/
def holds (d : Disk) : (fuel : Nat) → List Text → Except Problem Bool
  | 0, _ | _, [] => .ok false
  | fuel + 1, ws =>
    let isForm := ws.length = 3 ∨ ws.length = 4
    if ws.length = 3 ∧ isBinary (ws.getD 1 []) then evaluate d .operand ws
    else if isForm ∧ ws.head? = some "(" ∧ ws.getLast? = some ")" then holds d fuel ws.tail.dropLast
    else if isForm ∧ ws.head? = some "!" then (holds d fuel ws.tail).map not
    else evaluate d (token ws) ws

end FloatFlattening.Shell.Condition
