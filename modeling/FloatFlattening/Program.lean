import FloatFlattening.Disk.File
import FloatFlattening.Fault
import FloatFlattening.Text.Blank
/-!
External programs: how they are called, what they answer, and what they leave on the disk.
-/

namespace FloatFlattening

structure Invocation where
  program : Text
  arguments : List Text
  /-- The directory in which the program runs. -/
  directory : Text
  deriving DecidableEq, Repr

/-- An argument with a blank in it is set in quotation marks. -/
def Invocation.displayArgument (a : Text) : Text :=
  if a.any Text.isBlank then "\"" ++ a ++ "\"" else a

/-- One line for a reader. -/
def Invocation.display (i : Invocation) : Text :=
  Text.joinWith " " (i.program :: i.arguments.map displayArgument)

structure Output where
  /-- Nothing for a program that a signal ended. -/
  status : Option Int
  stdout : Text
  stderr : Text
  deriving DecidableEq, Repr

namespace Output

def success (o : Output) : Bool := o.status = some 0

def keptLines : Nat := 20

/-- The last lines of the error stream, or, when it is blank, of the other. -/
def diagnostics (o : Output) : Text :=
  let lines := Text.lines (if (Text.trim o.stderr).isEmpty then o.stdout else o.stderr)
  Text.joinWith "\n" (lines.drop (lines.length - keptLines))

def describeStatus (o : Output) : Text :=
  match o.status with
  | some code => "exited with status " ++ Text.ofInt code
  | none => "was terminated by a signal"

end Output

inductive Response
  | notFound
  | notStarted (reason : Text)
  | finished (o : Output)
  deriving DecidableEq, Repr

namespace Response

def fault (task : Task) (i : Invocation) (subject status diagnostics : Text) : Fault :=
  .tool task i.program subject status diagnostics

/-- The output of a program that ran and succeeded. -/
def check (task : Task) (i : Invocation) (subject : Text) : Response → Except Fault Output
  | notFound => throw (fault task i subject "was not found on PATH" [])
  | notStarted reason => throw (fault task i subject ("could not be started: " ++ reason) [])
  | finished o =>
    if o.success then return o else throw (fault task i subject o.describeStatus o.diagnostics)

end Response

/-- How programs respond to a call, given the calls before it and the disk as it is. -/
structure Toolchain where
  respond : (earlier : List Invocation) → Invocation → Disk → Response × Disk

end FloatFlattening
