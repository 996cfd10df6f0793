import FloatFlattening.Shell.Builtin.Input
import FloatFlattening.Shell.Builtin.Option
import FloatFlattening.Shell.Builtin.Signal
import FloatFlattening.Shell.Condition
import FloatFlattening.Shell.Printf
/-!
The commands that the shell has itself and that run no others.
-/

namespace FloatFlattening.Shell

namespace Builtin

def exit (arguments : List Text) : Action Nat := do
  Action.exit ((← countOr (← get).status arguments) % 256)

def giveBack (arguments : List Text) : Action Nat := do
  Action.setStatus (← countOr (← get).status arguments)
  throw .returned

/-- Leaves loops, of which there may be fewer than are asked for. -/
def leave (again : Bool) (arguments : List Text) : Action Nat := do
  let n ← countOr 1 arguments
  if n = 0 then Action.fail ("Illegal number: " ++ arguments.head?.getD [])
  let n := min n (← get).loops
  Action.setStatus 0
  if n = 0 then return 0 else throw (.left n again)

def shift (arguments : List Text) : Action Nat := do
  let n ← countOr 1 arguments
  if (← get).arguments.length < n then Action.fail "can't shift that many"
  modify fun s =>
    { s with arguments := s.arguments.drop n, optionIndex := 1, optionPlace := none }
  return 0

def test (arguments : List Text) : Action Nat := do
  match Condition.holds (← get).disk (arguments.length + 1) arguments with
  | .ok b => return status b
  | .error problem => Action.fail problem.describe

/-- A condition between brackets. -/
def bracket (arguments : List Text) : Action Nat :=
  if (arguments.getLast?.bind List.head?) = some ']' then test arguments.dropLast
  else Action.fail Condition.Problem.notABracket.describe

/-- A path from the root with its names, and without `.` and `..`. -/
def straight (p : Text) : Text :=
  let step (l : Location) (name : Text) : Location := if name = ".." then l.dropLast else l ++ [name]
  Location.path ((Path.names p).foldl step [])

def changeDirectory (arguments : List Text) : Action Nat := do
  let (_, arguments) ← options ['L', 'P'] arguments
  let s ← get
  let place := (s.value? "PWD").getD []
  let p :=
    match arguments with
    | [] => (s.value? "HOME").getD []
    | a :: _ => if a = "-" then (s.value? "OLDPWD").getD place else a
  if p.isEmpty then return 0
  let next := straight (Path.join place p)
  match s.disk.canonical next with
  | .ok l =>
    if s.disk.entry? l = some .directory then
      let exported (v : Variable) : Variable := { v with exported := true }
      Action.assign "OLDPWD" place
      Action.assign "PWD" next
      modify fun s => (s.change "OLDPWD" exported).change "PWD" exported
      modify fun s => { s with disk := { s.disk with here := l } }
      if arguments = [("-" : Text)] then return ← output (next ++ "\n").toBytes
      return 0
  | .error _ => pure ()
  Action.fail ("can't cd to " ++ p)

def tellDirectory (arguments : List Text) : Action Nat := do
  discard <| options ['L', 'P'] arguments
  output ((((← get).value? "PWD").getD []) ++ "\n").toBytes

def print (arguments : List Text) : Action Nat := do
  match (← options [] arguments).2 with
  | [] => Action.fail "usage: printf format [arg ...]"
  | format :: arguments =>
    let p := printf false format arguments
    p.problems.forM Action.complain
    let n ← output p.bytes
    match p.flaw with
    | some flaw => Action.fail flaw
    | none => return if p.problems.isEmpty then n else 1

/-- A number in base eight, if it is one. -/
def octal? (t : Text) : Option Nat :=
  if t.all Printf.isOctal then some (t.foldl (fun n c => 8 * n + (c.toNat - '0'.toNat)) 0) else none

/-- The permissions that new files are given, for one kind of user. -/
def granted (mask : Nat) : Text :=
  let one (bit : Nat) (c : Char) : Text := if mask / bit % 2 = 0 then [c] else []
  one 4 'r' ++ one 2 'w' ++ one 1 'x'

/-- Shows the permissions that new files are not given, or changes them. -/
def setMask (arguments : List Text) : Action Nat := do
  let (os, arguments) ← options ['S'] arguments
  let mask := (← get).mask
  match arguments with
  | [] =>
    if os.isEmpty then
      let digits := Nat.toDigits 8 mask
      output (Text.toBytes (List.replicate (4 - digits.length) '0' ++ digits ++ ['\n']))
    else
      let parts : List Text := ["u=" ++ granted (mask / 64), "g=" ++ granted (mask / 8),
        "o=" ++ granted mask]
      output (Text.toBytes (Text.joinWith "," parts ++ ['\n']))
  | a :: _ =>
    match octal? a with
    | some n =>
      modify ({ · with mask := n % 512 })
      return 0
    | none =>
      Action.fail ((if a.head?.any Char.isDigit then "Illegal number: " else "Illegal mode: ") ++ a)

/-- The times that a script takes, of which nothing is known. -/
def noTimes : Text :=
  "0m0.000000s 0m0.000000s\n0m0.000000s 0m0.000000s\n"

/-- Commands of the shell that are about the script itself. -/
def controlling : List (Text × (List Text → Action Nat)) := [
  ("exit", exit), ("return", giveBack), ("break", leave false),
  ("continue", leave true), ("shift", shift), ("set", set),
  ("getopts", nextOption), ("trap", trap), ("kill", kill),
  ("wait", wait), ("umask", setMask),
  ("times", fun _ => output (Text.toBytes noTimes)),
  ("fg", fun _ => Action.fail "No current job"), ("bg", fun _ => Action.fail "No current job"),
  ("jobs", fun _ => return 0), ("hash", fun _ => return 0), ("ulimit", fun _ => return 0)]

/-- Commands of the shell that are about names and values. -/
def naming : List (Text × (List Text → Action Nat)) := [
  ("export", mark "export " ({ · with exported := true }) (·.exported)),
  ("readonly", mark "readonly " ({ · with readOnly := true }) (·.readOnly)),
  ("local", keepOwn), ("unset", unset), ("read", readLine),
  ("alias", nameAliases), ("unalias", dropAliases)]

/-- Commands of the shell that could be programs as well. -/
def plain : List (Text × (List Text → Action Nat)) := [
  (":", fun _ => return 0), ("true", fun _ => return 0), ("false", fun _ => return 1),
  ("echo", fun arguments => output (echo arguments)), ("printf", print),
  ("test", test), ("[", bracket), ("pwd", tellDirectory),
  ("cd", changeDirectory), ("chdir", changeDirectory)]

end Builtin

/-- Commands of the shell whose problems end a script. -/
def specialBuiltins : List Text := ["break", ":", "continue", ".", "eval", "exec", "exit", "export",
  "local", "readonly", "return", "set", "shift", "times", "trap", "unset"].map String.toList

/-- The commands of the shell whose arguments may be assignments. -/
def assigningBuiltins : List Text := ["export", "readonly", "local", "command"]

/-- What a name stands for before programs are looked for. -/
def builtin? (name : Text) : Option (List Text → Action Nat) :=
  (Builtin.controlling ++ Builtin.naming ++ Builtin.plain).lookup name

end FloatFlattening.Shell
