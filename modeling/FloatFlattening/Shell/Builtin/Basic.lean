import FloatFlattening.Shell.Arithmetic
import FloatFlattening.Shell.Session
/-!
What the commands of the shell have in common: how they take their arguments and write.
-/

namespace FloatFlattening.Shell

namespace Builtin

def status (b : Bool) : Nat := if b then 0 else 1

def largestCount : Nat := 2 ^ 31 - 1

/-- A number that may not be below zero. -/
def count (t : Text) : Action Nat := do
  match Arithmetic.number? t with
  | some (.ofNat n) => if n ≤ largestCount then return n
  | _ => pure ()
  Action.fail ("Illegal number: " ++ t)

/-- The options at the beginning of arguments, as letters, and the arguments after them. -/
def options (known : List Char) : List Text → Action (List Char × List Text)
  | [] => return ([], [])
  | a :: rest => do
    match a with
    | '-' :: c :: cs =>
      if a = "--" then return ([], rest)
      if let some c := (c :: cs).find? (!known.contains ·) then
        Action.fail ("Illegal option " ++ ['-', c])
      let (os, rest) ← options known rest
      return (c :: cs ++ os, rest)
    | _ => return ([], a :: rest)

def countOr (standard : Nat) : List Text → Action Nat
  | [] => return standard
  | a :: _ => count a

/-- Writes on the output stream. -/
def output (b : Bytes) : Action Nat := do
  if b.isEmpty then return 0
  if ← Action.write 1 b then return 0
  Action.complain (((← get).builtin.getD []) ++ ": I/O error")
  return 1

/-- Divides `name=value`. -/
def definition (a : Text) : Text × Option Text :=
  let name := a.takeWhile (· ≠ '=')
  (name, if name.length < a.length then some (a.drop (name.length + 1)) else none)

/-- The rest of a text as it is written in a script, after an apostrophe or, within `marks`, after a
quotation mark, between which apostrophes stand. -/
def quotedRest : (marks : Bool) → Text → Text
  | false, [] => ['\'']
  | true, [] => ['"']
  | false, '\'' :: t => '\'' :: '"' :: '\'' :: quotedRest true t
  | true, '\'' :: t => '\'' :: quotedRest true t
  | false, c :: t => c :: quotedRest false t
  | true, c :: t => '"' :: '\'' :: c :: quotedRest false t

/-- A text as it is written in a script. -/
def quoted (t : Text) : Text := '\'' :: quotedRest false t

end Builtin

end FloatFlattening.Shell
