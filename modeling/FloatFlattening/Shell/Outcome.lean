import FloatFlattening.Shell.Session
/-!
How commands end, and what their end is for those around them.
-/

namespace FloatFlattening.Shell

namespace Action

/-- Ends a script that a failure ends. -/
def check (tested : Bool) : Action Unit := do
  let s ← get
  if s.options.stopOnFailure ∧ s.status ≠ 0 ∧ !tested then exit s.status

/-- Runs an action with an ending for a function or a script that is read in. -/
def untilReturned (a : Action Unit) : Action Unit :=
  try a
  catch
    | .returned => return
    | ending => throw ending

/-- Runs an action in a loop. Tells whether the loop goes on. -/
def turn (a : Action Unit) : Action Bool :=
  try
    a
    return true
  catch
    | .left 1 again => return again
    | .left (n + 2) again => throw (.left (n + 1) again)
    | ending => throw ending

def inLoop (a : Action Unit) : Action Unit := do
  let loops := (← get).loops
  modify ({ · with loops := loops + 1 })
  try a finally modify ({ · with loops })

/-- Runs a command of the shell; a problem of one that is not `special` is only a failure. -/
def asBuiltin (special : Bool) (name : Text) (a : Action Nat) : Action Unit := do
  let before := (← get).builtin
  modify ({ · with builtin := some name })
  try
    try
      let n ← a
      setStatus n
    finally modify ({ · with builtin := before })
  catch
    | .failed => if special then throw .failed else setStatus failure
    | ending => throw ending

def signalText : Nat → Text
  | 9 => "Killed"
  | 15 => "Terminated"
  | 1 => "Hangup"
  | 3 => "Quit"
  | 6 => "Aborted"
  | 10 => "User defined signal 1"
  | 11 => "Segmentation fault"
  | 12 => "User defined signal 2"
  | 14 => "Alarm clock"
  | n => "Signal " ++ Text.ofNat n

/-- Takes on how a program ended. -/
def joinProgram : Ending → Action Unit
  | .killed signal => do
    if signal ≠ 2 ∧ signal ≠ 13 then
      discard <| write 2 (Text.toBytes (signalText signal ++ ['\n']))
    setStatus (killedStatus signal)
  | ending => join ending

/-- Takes on how a part of the script ended that ran by itself. -/
def joinPart : Ending → Action Unit
  | .killed signal => throw (.killed signal)
  | ending => join ending

end Action

end FloatFlattening.Shell
