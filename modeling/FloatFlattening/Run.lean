import FloatFlattening.Flattening.Basic
import FloatFlattening.Program
/-!
A run: it works on a disk, calls programs and tells of its progress. All three are still there
after a failure.
-/

namespace FloatFlattening

inductive Stage
  | preparing
  | reading
  | collecting
  | typesetting
  | flattening
  | writing
  deriving DecidableEq, Repr

def Stage.name : Stage → Text
  | preparing => "prepare"
  | reading => "scan"
  | collecting => "extract"
  | typesetting => "rasterize"
  | flattening => "rewrite"
  | writing => "convert"

inductive Event
  | stage (s : Stage)
  | figureStarted (subject : Text) (index total : Nat)
  | figureDone (subject : Text) (index total : Nat) (image : Text)
  | done (output : Text)
  deriving DecidableEq, Repr

structure World where
  disk : Disk
  /-- The directory for scratch work where the settings name none. -/
  temporary : Text
  calls : List Invocation := []
  /-- The response to each call, and the disk as it was left. -/
  answers : List (Response × Disk) := []
  events : List Event := []
  deriving DecidableEq, Repr

abbrev Run := EStateM Failure World

namespace Run

/-- What a run comes to, and the world after it. -/
def outcome (r : Run α) (w : World) : Except Failure α × World :=
  match r.run w with
  | .ok a w => (.ok a, w)
  | .error f w => (.error f, w)

def fail (f : Fault) : Run α := throw (.fault f)

instance : MonadLift (Except Failure) Run where
  monadLift
    | .ok a => pure a
    | .error f => throw f

instance : MonadLift (Except Fault) Run where
  monadLift
    | .ok a => pure a
    | .error f => fail f

def disk : Run Disk := return (← get).disk

/-- Changes the disk, or fails for the obstacle in the way. -/
def change (fault : Text → Fault) (f : Disk → Except Disk.Obstacle Disk) : Run Unit := do
  match f (← disk) with
  | .ok d => modify ({ · with disk := d })
  | .error o => fail (fault o.describe)

/-- Makes a directory and those above it. What is made before an obstacle stays. -/
def makeDirectories (fault : Text → Fault) (p : Text) : Run Unit := do
  match (← disk).makeDirectories p with
  | .ok d => modify ({ · with disk := d })
  | .error o =>
    modify fun w => { w with disk := w.disk.failedDirectories p }
    fail (fault o.describe)

def tell (e : Event) : Run Unit := modify fun w => { w with events := w.events ++ [e] }

def call (tools : Toolchain) (task : Task) (subject : Text) (i : Invocation) : Run Output := do
  let w ← get
  let answer := tools.respond w.calls i w.disk
  set { w with disk := answer.2, calls := w.calls ++ [i], answers := w.answers ++ [answer] }
  answer.1.check task i subject

end Run

end FloatFlattening
