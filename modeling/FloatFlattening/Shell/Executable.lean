import FloatFlattening.Disk.File
/-!
Finding the program behind a name. A name with a slash is a path; any other is looked for in a list
of directories. A file is a program if it names one in its first line, after `#!`.
-/

namespace FloatFlattening.Shell

/-- A program of the system with the name and the arguments that it is called with. -/
structure Call where
  program : Text
  name : Text
  arguments : List Text
  deriving DecidableEq, Repr

namespace Installed

def shells : List Text := ["sh", "dash", "bash"].map String.toList

/-- The programs other than the shell. -/
def tools : List Text := ["cat", "echo", "printf", "true", "false", "test", "[", "pwd", "ls", "mkdir",
  "rmdir", "rm", "cp", "mv", "ln", "touch", "chmod", "head", "tail", "wc", "seq", "sleep", "basename",
  "dirname", "sort", "tr", "tee", "env", "printenv", "expr", "uniq", "cut", "tac", "readlink",
  "realpath"].map String.toList

/-- The directories of a system. -/
def directories : List Location :=
  ["boot", "dev", "etc", "home", "media", "mnt", "opt", "proc", "root", "run", "srv", "sys", "tmp",
    "usr", "usr/bin", "usr/lib", "usr/local", "usr/local/bin", "usr/local/lib", "usr/local/sbin",
    "usr/sbin", "usr/share", "var", "var/lib", "var/log", "var/tmp"].map fun (p : String) =>
      p.toList.splitOn '/'

/-- What else is there, other than programs. -/
def places : List (Location × Entry) := [
  (["bin"], .link "usr/bin"), (["lib"], .link "usr/lib"), (["sbin"], .link "usr/sbin"),
  (["dev", "null"], .device), (["etc", "group"], .file [] false), (["etc", "hosts"], .file [] false),
  (["etc", "passwd"], .file [] false)]

/-- What every disk has. -/
def entries : List (Location × Entry) :=
  directories.map (·, .directory) ++ places ++ (shells ++ tools).map fun name =>
    ((["usr", "bin"].map String.toList) ++ [name], Entry.program name)

end Installed

namespace Executable

/-- The programs that one may be a script for, each for the next. -/
def maxInterpreters : Nat := 5

/-- The program that a file asks for in its first line, with an argument. -/
def interpreter? (content : Bytes) : Option (Text × List Text) :=
  let isGap (c : Char) : Bool := c = ' ' || c = '\t'
  match Text.ofBytes (content.takeWhile (· ≠ 10)) with
  | '#' :: '!' :: line =>
    let line := ((line.dropWhile isGap).reverse.dropWhile isGap).reverse
    let name := line.takeWhile (!isGap ·)
    let argument := (line.drop name.length).dropWhile isGap
    if name.isEmpty then none else some (name, if argument.isEmpty then [] else [argument])
  | _ => none

/-- The program at a path. -/
def ofPath (d : Disk) : (interpreters : Nat) → (p name : Text) → List Text → Except Disk.Obstacle Call
  | interpreters, p, name, arguments => do
    match d.entry? (← d.locate true p) with
    | none => throw .missing
    | some (.program program) => return ⟨program, name, arguments⟩
    | some (.file content true) =>
      match interpreter? content, interpreters with
      | none, _ => throw .notProgram
      | some _, 0 => throw .tooManyLinks
      | some (other, given), interpreters + 1 =>
        ofPath d interpreters other other (given ++ p :: arguments)
    | some _ => throw .notExecutable

/-- The first program of a name in a list of directories. One that may not be run is passed over,
but told of if there is no other. -/
def search (d : Disk) (name : Text) (arguments : List Text) :
    (refused : Bool) → (last : Disk.Obstacle) → List Text → Except Disk.Obstacle Call
  | refused, last, [] => .error (if refused then .notExecutable else last)
  | refused, last, dir :: dirs =>
    match ofPath d maxInterpreters (Path.join dir name) name arguments with
    | .error .missing => search d name arguments refused .missing dirs
    | .error .notDirectory => search d name arguments refused .notDirectory dirs
    | .error .notExecutable => search d name arguments true last dirs
    | result => result

/-- Where programs are looked for if no variable says so. -/
def standardPath : Text := "/bin:/usr/bin"

def find (d : Disk) (searchPath : Option Text) (name : Text) (arguments : List Text) :
    Except Disk.Obstacle Call :=
  if name.isEmpty then .error .missing
  else if name.contains '/' then ofPath d maxInterpreters name name arguments
  else if Disk.maxNameSize < name.byteSize then .error .nameTooLong
  else search d name arguments false .missing ((searchPath.getD standardPath).splitOn ':')

end Executable

end FloatFlattening.Shell
