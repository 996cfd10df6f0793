import FloatFlattening.Path
import FloatFlattening.Text.Utf8
/-!
A tree of files. A location is the names from the root; a path is followed to a location name by
name, through the links on the way.
-/

namespace FloatFlattening

abbrev Location := List Text

namespace Location

def path (l : Location) : Text := "/" ++ Text.joinWith "/" l

end Location

inductive Entry
  | file (content : Bytes) (executable : Bool)
  | directory
  | link (target : Text)
  /-- Holds nothing, and keeps nothing that is written to it. -/
  | device
  /-- A program of the system, known by its name. -/
  | program (name : Text)
  deriving DecidableEq, Repr

structure Disk where
  entries : List (Location × Entry)
  /-- Where relative paths begin. -/
  here : Location
  deriving DecidableEq, Repr

namespace Disk

inductive Obstacle
  | missing
  | exists
  | notDirectory
  | isDirectory
  | notEmpty
  | busy
  | tooManyLinks
  | nameTooLong
  | notFile
  | badName
  | notExecutable
  | notProgram
  | badText
  deriving DecidableEq, Repr

def Obstacle.describe : Obstacle → Text
  | missing => "No such file or directory (os error 2)"
  | «exists» => "File exists (os error 17)"
  | notDirectory => "Not a directory (os error 20)"
  | isDirectory => "Is a directory (os error 21)"
  | notEmpty => "Directory not empty (os error 39)"
  | busy => "Device or resource busy (os error 16)"
  | tooManyLinks => "Too many levels of symbolic links (os error 40)"
  | nameTooLong => "File name too long (os error 36)"
  | notFile => "the source path is neither a regular file nor a symlink to a regular file"
  | badName => "file name contained an unexpected NUL byte"
  | notExecutable => "Permission denied (os error 13)"
  | notProgram => "Exec format error (os error 8)"
  | badText => "nul byte found in provided data"

/-- The root is always there. -/
def entry? (d : Disk) : Location → Option Entry
  | [] => some .directory
  | l => d.entries.lookup l

def put (d : Disk) (l : Location) (e : Entry) : Disk :=
  { d with entries := d.entries.filter (·.1 ≠ l) ++ [(l, e)] }

def erase (d : Disk) (l : Location) : Disk := { d with entries := d.entries.filter (·.1 ≠ l) }

/-- Erases everything at a location and below. -/
def eraseTree (d : Disk) (l : Location) : Disk :=
  { d with entries := d.entries.filter fun (k, _) => !l.isPrefixOf k }

def maxLinks : Nat := 40

def maxNameSize : Nat := 255

def maxPathSize : Nat := 4095

/-- The location that names lead to from a place, whether something is there or not. Only in a
directory do names lead anywhere. A link at the end is followed if `follow`; where a link is
followed, `resume` gives the location, from the place where its target begins and the names left. -/
def walkUntil (d : Disk) (follow : Bool) (resume : Location → List Text → Except Obstacle Location)
    (place : Location) : List Text → Except Obstacle Location
  | [] => .ok place
  | name :: rest =>
    match d.entry? place with
    | none => .error .missing
    | some .directory =>
      if name = [] ∨ name = "." then d.walkUntil follow resume place rest
      else if name = ".." then d.walkUntil follow resume place.dropLast rest
      else if maxNameSize < name.byteSize then .error .nameTooLong
      else
        match d.entry? (place ++ [name]) with
        | some (.link target) =>
          if rest = [] ∧ !follow then .ok (place ++ [name])
          else resume (if Path.isAbsolute target then [] else place) (Path.pieces target ++ rest)
        | _ => d.walkUntil follow resume (place ++ [name]) rest
    | some _ => .error .notDirectory

/-- The location that names lead to when a number of links may be followed. -/
def walk (d : Disk) (follow : Bool) : (links : Nat) → Location → List Text → Except Obstacle Location
  | 0 => d.walkUntil follow fun _ _ => .error .tooManyLinks
  | links + 1 => d.walkUntil follow (d.walk follow links)

def locate (d : Disk) (follow : Bool) (p : Text) : Except Obstacle Location :=
  if p.contains '\x00' then .error .badName
  else if p.isEmpty then .error .missing
  else if maxPathSize < p.byteSize then .error .nameTooLong
  else d.walk follow maxLinks (if Path.isAbsolute p then [] else d.here) (Path.pieces p)

/-- What is at a path, links followed. -/
def find? (d : Disk) (p : Text) : Option Entry := (d.locate true p).toOption.bind d.entry?

def isFile (d : Disk) (p : Text) : Bool :=
  match d.find? p with
  | some (.file ..) | some (.program _) => true
  | _ => false

def isDirectory (d : Disk) (p : Text) : Bool := d.find? p = some .directory

end Disk

end FloatFlattening
