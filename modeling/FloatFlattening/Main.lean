import FloatFlattening.CommandLine.Command
import FloatFlattening.Shell.Toolchain
/-!
The program. It takes the files that a command is about from the disk, carries out the command on
them and writes back what has changed. The external programs are scripts.
-/

namespace FloatFlattening.Main

def readBytes (l : Location) : IO Bytes := do
  return (← IO.FS.readBinFile (String.ofList l.path)).toList

/-- A file or a directory with everything below it. What cannot be read is left out. -/
partial def tree (l : Location) : IO (List (Location × Entry)) := do
  let place := (← IO.currentDir) / String.ofList l.path
  if ← place.isDir then
    let names := (← place.readDir).toList.map (·.fileName.toList)
    let below ← names.mapM fun name => tree (l ++ [name])
    return (l, .directory) :: below.flatten
  else
    match ← (readBytes l).toBaseIO with
    | .ok content => return [(l, .file content false)]
    | .error _ => return []

/-- A program, of which only the text of a script counts. -/
def executable (l : Location) : IO (List (Location × Entry)) := do
  match ← (IO.FS.Handle.mk (String.ofList l.path) .read).toBaseIO with
  | .error _ => return []
  | .ok handle =>
    if (← handle.read 2).toList = Text.toBytes "#!" then return [(l, .file (← readBytes l) true)]
    else return [(l, .file [0] true)]

/-- The names from the root, of a path seen from a directory. -/
def locationOf (here : Location) (p : Text) : Location :=
  let names := if Path.isAbsolute p then Path.names p else here ++ Path.names p
  let step (l : Location) (name : Text) : Location :=
    if name = ".." then l.dropLast else l ++ [name]
  names.foldl step []

def programNames (p : Programs) : List Text := [p.documentWriter, p.typesetter, p.pictureMaker]

def programs (here : Location) (environment : CommandLine.Variables) : IO (List (Location × Entry)) := do
  let path := (environment.lookup ("PATH" : Text)).getD Shell.Executable.standardPath
  let places := (path.splitOn ':').flatMap fun dir =>
    (programNames {}).map fun name => locationOf here (Path.join dir name)
  return (← places.mapM executable).flatten

/-- The names in use in a directory. -/
def names (l : Location) : IO (List (Location × Entry)) := do
  let place := (← IO.currentDir) / String.ofList l.path
  if ← place.isDir then
    return (← place.readDir).toList.map fun e => (l ++ [e.fileName.toList], .directory)
  else return []

/-- The directories on the way to a location. -/
def ancestors (l : Location) : List (Location × Entry) :=
  (List.range l.length).tail.map fun k => (l.take k, .directory)

/-- What a command is about: its own directory, that of its input and the files it names. -/
def disk (here : Location) (arguments : List Text) (environment : CommandLine.Variables) : IO Disk := do
  let options := CommandLine.Given.ofArguments arguments >>= (CommandLine.Options.ofGiven · environment)
  let named : List Location :=
    match options with
    | .error _ => []
    | .ok o =>
      let s := o.draft.settings
      locationOf here s.sourceDirectory ::
        o.values.map fun (_, value) => locationOf here value
  let outside := named.filter fun l => !here.isPrefixOf l && l ≠ []
  let found := (← (here :: outside).mapM tree).flatten
  let scratch := locationOf here (CommandLine.temporary environment)
  let entries := (← names scratch) ++ found ++ (← programs here environment)
  let directories := (scratch ++ [[]]) :: entries.map (·.1)
  let entries := directories.flatMap ancestors ++ entries
  let d : Disk := entries.foldl (fun d (l, e) => if l = [] then d else d.put l e) ⟨[], here⟩
  let system := Shell.Installed.entries.filter fun (l, _) => (d.entry? l).isNone
  return { d with entries := d.entries ++ system }

def variableNames : List Text :=
  (["PATH", "TMPDIR"] : List Text) ++ CommandLine.Switch.all.filterMap (·.environmentName?) ++
    CommandLine.Parameter.all.map (·.environmentName)

def readVariables : IO CommandLine.Variables :=
  variableNames.filterMapM fun name => do
    return (← IO.getEnv (String.ofList name)).map fun value => (name, value.toList)

/-- Makes the disk what it has become. -/
def writeBack (before after : Disk) : IO Unit := do
  for (l, e) in after.entries do
    if before.entry? l ≠ some e then
      match e with
      | .directory => IO.FS.createDirAll (String.ofList l.path)
      | .file content _ => IO.FS.writeBinFile (String.ofList l.path) ⟨content.toArray⟩
      | .link _ | .device | .program _ => pure ()
  for (l, _) in before.entries do
    if (after.entry? l).isNone then IO.FS.removeFile (String.ofList l.path)

end FloatFlattening.Main

open FloatFlattening in
def main (arguments : List String) : IO UInt32 := do
  let here := Path.names (← IO.currentDir).toString.toList
  let arguments := arguments.map String.toList
  let environment ← Main.readVariables
  let d ← Main.disk here arguments environment
  let (o, after) := CommandLine.run Shell.toolchain arguments environment d
  Main.writeBack d after
  (← IO.getStdout).putStr (String.ofList o.stdout)
  (← IO.getStderr).putStr (String.ofList o.stderr)
  return o.code.toUInt32
