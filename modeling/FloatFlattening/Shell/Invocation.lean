import FloatFlattening.Shell.Builtin
import FloatFlattening.Shell.Executable
import FloatFlattening.Shell.Stream
/-!
How programs are found and called, and what the shell and `env` make of the arguments that they are
called with.
-/

namespace FloatFlattening.Shell

/-- Looks for a program. A file that does not tell what it is a script for is one for the shell. -/
def Session.findProgram (s : Session) (name : Text) (arguments : List Text) :
    Except Disk.Obstacle Call :=
  let searchPath := (s.value? "PATH").getD []
  if name.isEmpty then .error .notExecutable
  else
    match Executable.find s.disk (some searchPath) name arguments with
    | .error .notProgram =>
      let p :=
        if name.contains '/' then name
        else (((searchPath.splitOn ':').map (Path.join · name)).find? s.disk.isFile).getD name
      .ok ⟨"sh", p, p :: arguments⟩
    | result => result

namespace Action

/-- What becomes of a name that no program has. A name that was looked for counts as not found, but
not if the program was to take the place of the script. -/
def notStarted (name : Text) (replaces : Bool) (o : Disk.Obstacle) : Action Nat := do
  complain (name ++ ": " ++ reason "not found" o)
  let isFound := o ≠ .missing && o ≠ .notDirectory && (replaces || name.contains '/')
  return if isFound then 126 else 127

/-- What a name stands for, or nothing: `brief`, as `command -v` tells it, or in words. -/
def describeName (brief : Bool) (name : Text) : Action (Option Text) := do
  let s ← get
  let say (long : Text) : Option Text := some (if brief then name else name ++ long)
  if Token.keywords.contains name then return say " is a shell keyword"
  else if specialBuiltins.contains name then return say " is a special shell builtin"
  else if (s.functions.lookup name).isSome then return say " is a shell function"
  else if (builtin? name).isSome ∨ name = "command" ∨ name = "type" then
    return say " is a shell builtin"
  else
    let dirs := ((s.value? "PATH").getD []).splitOn ':'
    let places := if name.contains '/' then [name] else dirs.map (Path.join · name)
    match places.find? fun p => Condition.test s.disk "-x" p && s.disk.isFile p with
    | some p => return some (if brief then p else name ++ " is " ++ p)
    | none => return none

/-- The variables that a shell begins with. -/
def shellVariables (environment : List (Text × Text)) (here : Location) : List Variable :=
  let own : List (Text × Text) := [("IFS", " \t\n"), ("OPTIND", "1"), ("PS1", "$ "), ("PS2", "> "),
    ("PS4", "+ "), ("PATH", "/usr/local/sbin:/usr/local/bin:/usr/sbin:/usr/bin:/sbin:/bin")]
  let given := environment.filter fun (name, _) => name ≠ "IFS" && name ≠ "PWD"
  let place : Variable :=
    { name := "PWD", value := some here.path, exported := true }
  let kept := own.filter fun (name, _) => (given.lookup name).isNone
  kept.map (fun (name, value) => { name, value := some value }) ++
    given.map (fun (name, value) => { name, value := some value, exported := true }) ++ [place]

/-- The options of a shell that is called: their letters, and what follows them. -/
def shellOptions : List Text → Action (List Char × List Text)
  | [] => return ([], [])
  | a :: rest => do
    match a with
    | sign :: c :: cs =>
      if sign ≠ '-' ∧ sign ≠ '+' then return ([], a :: rest)
      if a = "--" then return ([], rest)
      discard <| Builtin.setOptions [sign :: (c :: cs).filter fun c => c ≠ 'c' && c ≠ 'o']
      match (c :: cs).contains 'o', rest with
      | true, name :: rest =>
        discard <| Builtin.setOptions [[sign, 'o'], name]
        let (letters, rest) ← shellOptions rest
        return (c :: cs ++ letters, rest)
      | _, rest =>
        let (letters, rest) ← shellOptions rest
        return (c :: cs ++ letters, rest)
    | _ => return ([], if a = "-" then rest else a :: rest)

/-- The variables, options and the program that `env` is asked for. -/
def environmentCall : List Text → List (Text × Text) → List (Text × Text) × List Text
  | [], environment => (environment, [])
  | a :: rest, environment =>
    if a = "-i" ∨ a = "-" then environmentCall rest []
    else if a = "--" then environmentCall rest environment
    else if a = "-u" then
      match rest with
      | [] => (environment, [])
      | name :: rest => environmentCall rest (environment.filter (·.1 ≠ name))
    else
      let (name, value) := Builtin.definition a
      match value with
      | some value =>
        let isKnown := (environment.lookup name).isSome
        let changed := environment.map fun v => if v.1 = name then (name, value) else v
        environmentCall rest (if isKnown then changed else changed ++ [(name, value)])
      | none => (environment, a :: rest)

end Action

end FloatFlattening.Shell
