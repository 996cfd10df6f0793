import FloatFlattening.Disk.Basic
/-!
Reading and changing a tree of files.
-/

namespace FloatFlattening.Disk

def read (d : Disk) (p : Text) : Except Obstacle Bytes := do
  match d.entry? (← d.locate true p) with
  | some (.file content _) => return content
  | some .device | some (.program _) => return []
  | some _ => throw .isDirectory
  | none => throw .missing

/-- Writes a file, in place of the content of one that is there. -/
def write (d : Disk) (p : Text) (content : Bytes) (executable : Bool := false) :
    Except Obstacle Disk := do
  let l ← d.locate true p
  match d.entry? l with
  | none => return d.put l (.file content executable)
  | some (.file _ executable) => return d.put l (.file content executable)
  | some .device => return d
  | some (.program _) => throw .notExecutable
  | some _ => throw .isDirectory

def trimSlashes (p : Text) : Text := (p.reverse.dropWhile (· = '/')).reverse

def makeDirectory (d : Disk) (p : Text) : Except Obstacle Disk :=
  if p.contains '\x00' then .error .badName
  else if maxPathSize < p.byteSize then .error .nameTooLong
  else if !p.isEmpty ∧ (trimSlashes p).isEmpty then .error .exists
  else do
    let l ← d.locate false (trimSlashes p)
    match d.entry? l with
    | none => return d.put l .directory
    | some _ => throw .exists

/-- Makes the first of the given paths a directory, and before it those after it that it needs. -/
def makeChain (d : Disk) : List Text → Except Obstacle Disk
  | [] => throw .missing
  | p :: parents =>
    if p.isEmpty then .ok d
    else
      let settle (d : Disk) : Except Obstacle Disk → Except Obstacle Disk
        | .error o => if d.isDirectory p then .ok d else .error o
        | ok => ok
      match d.makeDirectory p with
      | .error .missing => do
        let d ← d.makeChain parents
        settle d (d.makeDirectory p)
      | result => settle d result

/-- Makes a directory and those above it, where they are not there yet. -/
def makeDirectories (d : Disk) (p : Text) : Except Obstacle Disk := d.makeChain (p :: Path.parents p)

/-- What is left when making a chain fails: the directories that were made before the obstacle. -/
def failedChain (d : Disk) : List Text → Disk
  | [] => d
  | p :: parents =>
    match d.makeDirectory p with
    | .error .missing =>
      match d.makeChain parents with
      | .ok d => d
      | .error _ => d.failedChain parents
    | _ => d

def failedDirectories (d : Disk) (p : Text) : Disk := d.failedChain (p :: Path.parents p)

def copy (d : Disk) (source target : Text) : Except Obstacle Disk := do
  match d.entry? (← d.locate true source) with
  | none => throw .missing
  | some (.file content executable) =>
    let d ← d.write target content executable
    let l ← d.locate true target
    return if d.entry? l = some .device then d else d.put l (.file content executable)
  | some _ => throw .notFile

/-- Moves a file, in place of one that is there. The new path has to name an entry: one that ends in
`.` or `..` names a directory in use, and one that ends in a slash has to be a directory. -/
def rename (d : Disk) (source target : Text) : Except Obstacle Disk := do
  let old ← d.locate false source
  let named := trimSlashes target
  let new ← d.locate false (if named.isEmpty then target else named)
  if Path.last named ∈ [[], ['.'], ['.', '.']] then throw .busy
  match d.entry? old, d.entry? new with
  | none, _ => throw .missing
  | some e, there =>
    if Text.endsWith target "/" then throw .notDirectory
    if there = some .directory then throw .isDirectory
    return (d.erase old).put new e

def remove (d : Disk) (p : Text) : Except Obstacle Disk := do
  let l ← d.locate false p
  match d.entry? l with
  | none => throw .missing
  | some .directory => throw .isDirectory
  | some _ => return d.erase l

/-- The path from the root without links. -/
def canonical (d : Disk) (p : Text) : Except Obstacle Location := do
  let l ← d.locate true p
  if (d.entry? l).isNone then throw .missing
  return l

/-- The names in a directory, in order. -/
def list (d : Disk) (p : Text) : Except Obstacle (List Text) := do
  let l ← d.locate true p
  match d.entry? l with
  | some .directory =>
    let names := d.entries.filterMap fun (k, _) =>
      if k ≠ [] ∧ k.dropLast = l then k.getLast? else none
    return names.mergeSort (· ≤ ·)
  | some _ => throw .notDirectory
  | none => throw .missing

end FloatFlattening.Disk
