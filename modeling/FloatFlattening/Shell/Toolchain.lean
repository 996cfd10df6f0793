import FloatFlattening.Program
import FloatFlattening.Shell.Evaluation
/-!
Programs that are scripts on the disk, or those that every system has.
-/

namespace FloatFlattening.Shell

/-- How many steps a script may take. -/
def maxSteps : Nat := 100000

/-- What a program writes and how it ends, and the disk it leaves. -/
def Call.output (c : Call) (d : Disk) (environment : List (Text × Text)) : Output × Disk :=
  let s : Session := { disk := d, bindings := [], name := c.name, arguments := c.arguments }
  let answer (status : Option Int) (s : Session) : Output × Disk :=
    (⟨status, Text.ofBytes (s.written 0), Text.ofBytes (s.written 1)⟩, s.disk)
  match EStateM.run (Action.runCall maxSteps environment c) s with
  | .ok _ s => answer (some s.status) s
  | .error (.exited n) s => answer (some n) s
  | .error .failed s => answer (some Action.failure) s
  | .error (.killed _) s => answer none s
  | .error _ s => answer (some s.status) s

/-- The programs that are found with the given environment. -/
def toolchain (environment : List (Text × Text)) : Toolchain where
  respond _ i d :=
    let found : Except Disk.Obstacle (Location × Call) := do
      if (i.program :: i.arguments).any (·.contains '\x00') then throw .badText
      let here ← d.canonical i.directory
      if d.entry? here ≠ some .directory then throw .notDirectory
      let searchPath := environment.lookup ("PATH" : Text)
      return (here, ← Executable.find { d with here } searchPath i.program i.arguments)
    match found with
    | .error .missing => (.notFound, d)
    | .error o => (.notStarted o.describe, d)
    | .ok (here, c) =>
      let (o, after) := c.output { d with here } environment
      (.finished o, { after with here := d.here })

end FloatFlattening.Shell
