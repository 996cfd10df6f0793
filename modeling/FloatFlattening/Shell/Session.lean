import FloatFlattening.Disk.File
import FloatFlattening.Shell.Script
import FloatFlattening.Text.Decimal
/-!
The state of a script that runs: the disk, its variables, and what it has written and has yet to
read.
-/

namespace FloatFlattening.Shell

/-- What a stream leads to. What is written to a sink is kept, and a source holds what is still to
be read from it. -/
inductive Channel
  | sink (number : Nat)
  | source (number : Nat)
  | file (number : Nat)
  | discarded
  deriving DecidableEq, Repr

/-- A file that is written to. -/
structure OpenFile where
  place : Location
  /-- How far it has been written; nothing if it is always written to at its end. -/
  offset : Option Nat
  deriving DecidableEq, Repr

structure Variable where
  name : Text
  value : Option Text
  exported : Bool := false
  readOnly : Bool := false
  deriving DecidableEq, Repr

structure Options where
  /-- Whether a command that fails ends the script. -/
  stopOnFailure : Bool := false
  refuseUnset : Bool := false
  trace : Bool := false
  plainNames : Bool := false
  /-- Whether a file that is there is not written anew. -/
  keepFiles : Bool := false
  exportAll : Bool := false
  /-- Whether commands are only read. -/
  idle : Bool := false
  deriving DecidableEq, Repr

def Options.letters (o : Options) : Text :=
  let all : List (Bool × Char) := [(o.refuseUnset, 'u'), (o.exportAll, 'a'), (o.keepFiles, 'C'),
    (o.trace, 'x'), (o.idle, 'n'), (o.plainNames, 'f'), (o.stopOnFailure, 'e')]
  all.filterMap fun (on, c) => if on then some c else none

structure Session where
  disk : Disk
  bindings : List Variable
  /-- The name by which the script was called. -/
  name : Text
  arguments : List Text
  /-- How the last command ended, zero for success. -/
  status : Nat := 0
  options : Options := {}
  functions : List (Text × Script) := []
  /-- Names of commands that stand for other text, the latest first. -/
  aliases : List (Text × Text) := []
  /-- How the commands ended that were run aside, the latest first. -/
  jobs : List Nat := []
  /-- The argument that is read next as an option, counted from one, and the place within the one
  before it that has been reached. -/
  optionIndex : Nat := 1
  optionPlace : Option Nat := none
  /-- The permissions that new files are not given. -/
  mask : Nat := 0o022
  /-- What is done for a signal, or at the end. -/
  traps : List (Text × Text) := []
  /-- What the whole script does for signals, if this is a part of it that runs by itself. It is the
  whole script that signals reach. -/
  whole : Option (List (Text × Text)) := none
  /-- The signals that came while there was something to be done for them. -/
  signals : List Text := []
  streams : List (Nat × Channel) := [(0, .source 0), (1, .sink 0), (2, .sink 1)]
  /-- What was written to each sink, the latest first. -/
  sinks : List (List Bytes) := [[], []]
  sources : List Bytes := [[]]
  files : List OpenFile := []
  /-- The line of the command that runs, and its name if the shell itself has it. -/
  line : Nat := 0
  builtin : Option Text := none
  /-- How the last script within a word ended. -/
  outputStatus : Nat := 0
  /-- The number of loops around the command that runs, and of functions. -/
  loops : Nat := 0
  depth : Nat := 0
  /-- The variables as they were before the function that runs made them its own. -/
  hidden : List Variable := []

inductive Ending
  | exited (status : Nat)
  /-- The end because of a problem. -/
  | failed
  | killed (signal : Nat)
  /-- The end of a number of loops, or of all but the last and just of its body. -/
  | left (loops : Nat) (again : Bool)
  /-- The end of a function or a script read in. -/
  | returned
  deriving DecidableEq, Repr

/-- A part of a script; it may end the whole script. -/
abbrev Action := EStateM Ending Session

namespace Session

/-- The number by which a script calls itself; those of its jobs follow it. -/
def process : Nat := 1

def named? (s : Session) (name : Text) : Option Variable := s.bindings.find? (·.name = name)

/-- The characters that divide fields. -/
def dividers (s : Session) : Text := (((s.named? "IFS").map (·.value)).getD none).getD " \t\n"

/-- What joins arguments that make one text. -/
def separator (s : Session) : Text := s.dividers.take 1

/-- The value of a variable, or of one of those that the shell keeps. -/
def value? (s : Session) (name : Text) : Option Text :=
  if name = "@" ∨ name = "*" then some (Text.joinWith s.separator s.arguments)
  else if name = "#" then some (Text.ofNat s.arguments.length)
  else if name = "?" then some (Text.ofNat s.status)
  else if name = "$" then some (Text.ofNat process)
  else if name = "!" then
    if s.jobs.isEmpty then none else some (Text.ofNat (process + s.jobs.length))
  else if name = "-" then some (s.options.letters)
  else if !name.isEmpty && name.all Char.isDigit then (s.name :: s.arguments)[Decimal.value name]?
  else (s.named? name).bind (·.value)

/-- Changes what is known of a variable. -/
def change (s : Session) (name : Text) (f : Variable → Variable) : Session :=
  if (s.named? name).isSome then
    { s with bindings := s.bindings.map fun v => if v.name = name then f v else v }
  else { s with bindings := s.bindings ++ [f { name, value := none }] }

def restore (s : Session) (v : Variable) : Session := s.change v.name fun _ => v

/-- The chain that a variable is kept in. -/
def chain (name : Text) : Nat :=
  (16 * ((name.head?.map (·.toNat)).getD 0) + (name.map (·.toNat)).sum) % 39

/-- The variables that programs are given, chain by chain. -/
def environment (s : Session) : List (Text × Text) :=
  let vs := s.bindings.mergeSort fun a b => chain a.name ≤ chain b.name
  vs.filterMap fun v => if v.exported then v.value.map (v.name, ·) else none

def stream? (s : Session) (n : Nat) : Option Channel := s.streams.lookup n

def close (s : Session) (n : Nat) : Session := { s with streams := s.streams.filter (·.1 ≠ n) }

def connect (s : Session) (n : Nat) (k : Channel) : Session :=
  { s with streams := (n, k) :: s.streams.filter (·.1 ≠ n) }

/-- Everything that was written to a sink. -/
def written (s : Session) (sink : Nat) : Bytes := (s.sinks.getD sink []).reverse.flatten

/-- Adds to what a channel holds; nothing if it cannot be written to. -/
def fill? (s : Session) (b : Bytes) : Channel → Option Session
  | .sink n => some { s with sinks := s.sinks.modify n (b :: ·) }
  | .discarded => some s
  | .source _ => none
  | .file n =>
    match s.files[n]? with
    | none => none
    | some f =>
      match s.disk.entry? f.place with
      | some (.file content executable) =>
        let start := f.offset.getD content.length
        let before := content.take start ++ List.replicate (start - content.length) 0
        let content := before ++ b ++ content.drop (start + b.length)
        let offset := f.offset.map (· + b.length)
        some { s with
          disk := s.disk.put f.place (.file content executable)
          files := s.files.set n { f with offset } }
      | _ => some s

end Session

namespace Action

def setStatus (n : Nat) : Action Unit := modify ({ · with status := n })

/-- Whether the stream could be written to. -/
def write (stream : Nat) (b : Bytes) : Action Bool := do
  let s ← get
  match (s.stream? stream).bind (s.fill? b) with
  | none => return false
  | some s =>
    set s
    return true

/-- Tells of a problem. -/
def complain (message : Text) : Action Unit := do
  let s ← get
  let command : Text := (s.builtin.map fun name => name ++ [':', ' ']).getD []
  let t := s.name ++ ": " ++ Text.ofNat s.line ++ ": " ++ command ++ message ++ "\n"
  discard <| write 2 t.toBytes

def exit (status : Nat) : Action α := throw (.exited status)

/-- The status of what fails because of a problem. -/
def failure : Nat := 2

/-- Ends the script because of a problem. -/
def fail (message : Text) : Action α := do
  complain message
  throw .failed

def assign (name value : Text) : Action Unit := do
  if ((← get).named? name).any (·.readOnly) then fail (name ++ ": is read only")
  let s ← get
  set (s.change name fun v =>
    { v with value := some value, exported := v.exported || s.options.exportAll })
  if name = "OPTIND" then
    modify ({ · with optionIndex := max 1 (Decimal.value value), optionPlace := none })

/-- Takes what is left in a source, up to the end of a line if `line`. -/
def take (stream : Nat) (line : Bool) : Action Bytes := do
  let s ← get
  match s.stream? stream with
  | some (.source n) =>
    let b := s.sources.getD n []
    let first := b.takeWhile (· ≠ 10)
    let taken := if line then b.take (first.length + 1) else b
    set { s with sources := s.sources.set n (b.drop taken.length) }
    return taken
  | _ => return []

def addSource (s : Session) (b : Bytes) : Session × Channel :=
  ({ s with sources := s.sources ++ [b] }, .source s.sources.length)

/-- Runs an action by itself: only what it wrote and read, and did to the disk, is left of it. -/
def isolated (a : Action Unit) : Action Ending := do
  let s ← get
  let (ending, after) : Ending × Session :=
    match a.run s with
    | .ok _ after => (.exited after.status, after)
    | .error ending after => (ending, after)
  set { s with
    disk := { after.disk with here := s.disk.here }
    sinks := after.sinks, sources := after.sources, files := after.files
    signals := after.signals }
  return ending

/-- The status of a command that a signal ended. -/
def killedStatus (signal : Nat) : Nat := 128 + signal

/-- Takes on how an isolated action ended. -/
def join : Ending → Action Unit
  | .exited n => setStatus n
  | .failed => setStatus failure
  | .killed signal => setStatus (killedStatus signal)
  | .left .. | .returned => return

/-- What an action by itself writes on its output stream, and how it ended. -/
def capture (a : Action Unit) : Action (Bytes × Ending) := do
  let number := (← get).sinks.length
  modify fun s => { s with sinks := s.sinks ++ [[]] }
  let ending ← isolated do
    modify (·.connect 1 (.sink number))
    a
  let b := (← get).written number
  modify fun s => { s with sinks := s.sinks.take number }
  return (b, ending)

end Action

end FloatFlattening.Shell
