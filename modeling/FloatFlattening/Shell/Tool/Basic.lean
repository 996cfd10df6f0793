import FloatFlattening.Shell.Session
/-!
The programs of a system that are no scripts: what they are called with, and how they tell of what
went wrong.
-/

namespace FloatFlattening.Shell

/-- What a tool is called with. -/
structure Tool where
  /-- The name by which it was called. -/
  name : Text
  arguments : List Text
  deriving DecidableEq, Repr

/-- Arguments of a tool: options, with the values of those that take one, and operands. -/
structure Tool.Given where
  options : List (Char × Text)
  operands : List Text
  deriving DecidableEq, Repr

namespace Tool

/-- A name as it is written for a shell, between apostrophes or, if it has some, otherwise. -/
def quoted (p : Text) : Text :=
  if !p.contains '\'' then "'" ++ p ++ "'"
  else if p.any (['"', '$', '\\', '!', Char.ofNat 0x60].contains ·) then
    "'" ++ p.flatMap (fun c => if c = '\'' then "'\\''".toList else [c]) ++ "'"
  else "\"" ++ p ++ "\""

def specialChars : Text := " !\"$&'()*:;<=>?[\\^|" ++ [Char.ofNat 0x60]

/-- A name as it is written for a shell, quoted only if it has to be. -/
def named (p : Text) : Text :=
  let isPlain := !p.isEmpty && p.all (!specialChars.contains ·) &&
    !(p.head?.any fun c => c = '#' || c = '~') && p ≠ ['\x7b'] && p ≠ ['\x7d']
  if isPlain then p else quoted p

def reason (o : Disk.Obstacle) : Text :=
  let t := o.describe
  t.take (t.takeWhile (· ≠ '(')).length.pred

namespace Given

def has (g : Given) (c : Char) : Bool := g.options.any (·.1 = c)

def value? (g : Given) (c : Char) : Option Text := (g.options.reverse.find? (·.1 = c)).map (·.2)

/-- The options in one argument; the last of them may still need its value. -/
def cluster (flags valued : List Char) : Text → Except Text (List (Char × Text) × Option Char)
  | [] => .ok ([], none)
  | c :: cs => do
    if flags.contains c then
      let (more, open?) ← cluster flags valued cs
      return ((c, []) :: more, open?)
    else if !valued.contains c then throw ("invalid option -- " ++ quoted [c])
    else if cs.isEmpty then return ([], some c)
    else return ([(c, cs)], none)

/-- Reads arguments. Options may come after operands unless they are to be `early`. -/
def read (flags valued : List Char) (early : Bool) : List Text → Except Text Given
  | [] => .ok ⟨[], []⟩
  | a :: rest => do
    if a = "--" then return ⟨[], rest⟩
    match a with
    | '-' :: '-' :: _ => throw ("unrecognized option " ++ quoted a)
    | '-' :: c :: cs =>
      match ← cluster flags valued (c :: cs), rest with
      | (os, none), rest =>
        let g ← read flags valued early rest
        return { g with options := os ++ g.options }
      | (_, some c), [] => throw ("option requires an argument -- " ++ quoted [c])
      | (os, some c), value :: rest =>
        let g ← read flags valued early rest
        return { g with options := os ++ (c, value) :: g.options }
    | _ =>
      if early then return ⟨[], a :: rest⟩
      let g ← read flags valued early rest
      return { g with operands := a :: g.operands }

end Given

/-- Tells of a problem; the status is that of a tool that has had one. -/
def complain (t : Tool) (message : Text) (status : Nat := 1) : Action Nat := do
  discard <| Action.write 2 (Text.toBytes (t.name ++ ": " ++ message ++ "\n"))
  return status

def hint (t : Tool) (message : Text) (status : Nat := 1) : Action Nat :=
  t.complain (message ++ "\nTry '" ++ t.name ++ " --help' for more information.") status

/-- Reads the arguments, of which there have to be some operands if `needed`. -/
def given (t : Tool) (flags valued : List Char) (needed : Bool) (f : Given → Action Nat)
    (status : Nat := 1) : Action Nat :=
  match Given.read flags valued false t.arguments with
  | .error message => t.hint message status
  | .ok g => if needed && g.operands.isEmpty then t.hint "missing operand" status else f g

def print (b : Bytes) : Action Unit := discard <| Action.write 1 b

def printText (t : Text) : Action Unit := print t.toBytes

/-- Does something for each argument; the status is that of the last that was no success. -/
def each (arguments : List Text) (f : Text → Action Nat) : Action Nat := do
  let results ← arguments.mapM f
  return (results.filter (· ≠ 0)).getLast?.getD 0

def onDisk (t : Tool) (message : Text) (f : Disk → Except Disk.Obstacle Disk) : Action Nat := do
  match f (← get).disk with
  | .ok d =>
    modify ({ · with disk := d })
    return 0
  | .error o => t.complain (message ++ ": " ++ reason o)

/-- What a file holds, or the input for the name `-`. -/
def content (p : Text) : Action (Except Disk.Obstacle Bytes) := do
  if p = "-" then return .ok (← Action.take 0 false)
  else return (← get).disk.read p

/-- What all the given files hold, or the input stream if there are none, and a status. -/
def input (t : Tool) (files : List Text) (message : Text → Disk.Obstacle → Text)
    (status : Nat := 1) : Action (Bytes × Nat) := do
  let parts ← (if files.isEmpty then [['-']] else files).mapM fun p => do
    match ← content p with
    | .ok b => return (b, 0)
    | .error o => return ([], ← t.complain (message p o) status)
  return ((parts.map (·.1)).flatten, (parts.map (·.2)).foldl max 0)

def plainReason (p : Text) (o : Disk.Obstacle) : Text := named p ++ ": " ++ reason o

end Tool

end FloatFlattening.Shell
