import FloatFlattening.Shell.Builtin.Basic
/-!
Variables and other names: how they are given, marked, listed and taken away.
-/

namespace FloatFlattening.Shell

namespace Builtin

def listed (command : Text) (vs : List Variable) : Text :=
  let line (v : Variable) : Text :=
    command ++ v.name ++ ((v.value.map fun t => ['='] ++ quoted t).getD []) ++ ['\n']
  (vs.mergeSort fun a b => a.name ≤ b.name).flatMap line

/-- Defines variables and marks them. -/
def mark (command : Text) (f : Variable → Variable) (isMarked : Variable → Bool)
    (arguments : List Text) : Action Nat := do
  let (_, arguments) ← options ['p'] arguments
  if arguments.isEmpty then
    return ← output (listed command ((← get).bindings.filter isMarked)).toBytes
  for a in arguments do
    let (name, value) := definition a
    if !Word.isName name then Action.fail (name ++ ": bad variable name")
    if let some value := value then Action.assign name value
    modify (·.change name f)
  return 0

def unset (arguments : List Text) : Action Nat := do
  let (os, arguments) ← options ['v', 'f'] arguments
  if os.getLast? = some 'f' then
    modify fun s => { s with functions := s.functions.filter fun (k, _) => !arguments.contains k }
    return 0
  for name in arguments do
    if ((← get).named? name).any (·.readOnly) then Action.fail (name ++ ": is read only")
    modify fun s => { s with bindings := s.bindings.filter (·.name ≠ name) }
  return 0

/-- Makes variables those of the function that runs. -/
def keepOwn (arguments : List Text) : Action Nat := do
  if (← get).depth = 0 then Action.fail "not in a function"
  for a in arguments do
    let (name, value) := definition a
    modify fun s =>
      { s with hidden := (s.named? name).getD { name, value := none } :: s.hidden }
    if let some value := value then Action.assign name value
  return 0

def nameAliases (arguments : List Text) : Action Nat := do
  let line (a : Text × Text) : Text := a.1 ++ ['='] ++ quoted a.2 ++ ['\n']
  if arguments.isEmpty then
    return ← output (Text.toBytes ((← get).aliases.reverse.flatMap line))
  let results ← arguments.mapM fun a => do
    match definition a with
    | (name, some value) =>
      modify fun s =>
        { s with aliases := (name, value) :: s.aliases.filter (·.1 ≠ name) }
      return 0
    | (name, none) =>
      match (← get).aliases.lookup name with
      | some value => output (Text.toBytes (line (name, value)))
      | none =>
        discard <| Action.write 2 (Text.toBytes ("alias: " ++ name ++ " not found\n"))
        return 1
  return status (results.all (· = 0))

def dropAliases (arguments : List Text) : Action Nat := do
  let (os, names) ← options ['a'] arguments
  if !os.isEmpty then modify ({ · with aliases := [] })
  let results ← names.mapM fun name => do
    let known := ((← get).aliases.lookup name).isSome
    if !known then
      discard <| Action.write 2 (Text.toBytes ("unalias: " ++ name ++ " not found\n"))
    modify fun s => { s with aliases := s.aliases.filter (·.1 ≠ name) }
    return status known
  return status (results.all (· = 0))

end Builtin

end FloatFlattening.Shell
