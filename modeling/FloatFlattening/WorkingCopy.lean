import FloatFlattening.Run
import FloatFlattening.Settings
/-!
The working copy: the directory of a document, copied into a scratch directory. Everything that a
run writes, but for its output, is written there.
-/

namespace FloatFlattening

structure WorkingCopy where
  /-- The scratch directory. -/
  root : Text
  /-- The copy of the document's directory. -/
  directory : Text
  input : Text
  /-- Where blocks are typeset. -/
  figures : Text
  /-- Whether the scratch directory stays after the run. -/
  kept : Bool
  deriving DecidableEq, Repr

namespace Disk

/-- The directories that are not copied. -/
def skippedNames : List Text := [".git", ".hg", ".svn", "target"]

/-- Whether a place is in a directory below `source`, or is one, that is not copied. -/
def isSkipped (d : Disk) (source : Location) (excluded : List Location) (below : Location) : Bool :=
  (List.range below.length).any fun k =>
    let l := source ++ below.take (k + 1)
    d.entry? l = some .directory && (l.getLast?.any (· ∈ skippedNames) || l ∈ excluded)

/-- What an entry is copied as. A link is copied as the file it leads to, or not at all. -/
def copied? (d : Disk) (l : Location) : Entry → Option Entry
  | .link _ =>
    match d.find? l.path with
    | some (.file content executable) => some (.file content executable)
    | _ => none
  | e => some e

/-- The copies of what is below `source`, at the same places below `target`. -/
def copies (d : Disk) (source : Location) (excluded : List Location) (target : Location) :
    List (Location × Entry) :=
  d.entries.filterMap fun (l, e) =>
    let below := l.drop source.length
    if source.isPrefixOf l ∧ below ≠ [] ∧ !d.isSkipped source excluded below then
      (d.copied? l e).map (target ++ below, ·)
    else none

/-- Copies a directory to a place where nothing is. -/
def copyTree (d : Disk) (source : Location) (excluded : List Location) (target : Location) : Disk :=
  { d with entries := d.entries ++ (target, .directory) :: d.copies source excluded target }

def isLink (d : Disk) (p : Text) : Bool :=
  match (d.locate false p).toOption.bind d.entry? with
  | some (.link _) => true
  | _ => false

/-- Copies a directory that is given as a link. Its copy is made with that of the first directory
in it; what comes before, in order, has no place, and a file there is told of by its name. -/
def copyLinked (d : Disk) (source : Location) (excluded : List Location) (target : Location) :
    Except Text Disk :=
  let (before, after) := ((d.list source.path).toOption.getD []).span fun name =>
    d.entry? (source ++ [name]) ≠ some .directory || d.isSkipped source excluded [name]
  let isPlain (name : Text) : Bool :=
    match d.entry? (source ++ [name]) with
    | some (.file ..) => true
    | _ => false
  match before.find? isPlain, after with
  | some name, _ => .error name
  | none, [] => .ok d
  | none, _ => .ok <| before.foldl (fun d name => d.erase (target ++ [name])) <|
      d.copyTree source excluded target

def scratchName (k : Nat) : Text :=
  let digits := Text.ofNat k
  "tex2docx-" ++ List.replicate (6 - digits.length) '0' ++ digits

def isVacant (d : Disk) (p : Text) : Bool :=
  match d.locate false p with
  | .ok l => (d.entry? l).isNone
  | .error _ => true

/-- A name for a scratch directory that is not in use in the given one. -/
def freshScratch (d : Disk) (parent : Text) : Text :=
  let names := (List.range (d.entries.length + 1)).map scratchName
  Path.join parent ((names.find? fun name => d.isVacant (Path.join parent name)).getD [])

end Disk

namespace WorkingCopy

/-- Removes the scratch directory, unless it is kept. -/
def discard (w : WorkingCopy) : Run Unit := do
  if !w.kept then
    match (← Run.disk).locate true w.root with
    | .ok l => modify fun world => { world with disk := world.disk.eraseTree l }
    | .error _ => return

def fill (w : WorkingCopy) (s : Settings) (parent : Text) : Run Unit := do
  let d ← Run.disk
  let source ←
    match d.canonical s.sourceDirectory with
    | .ok l => pure l
    | .error o => Run.fail (.workspace s.sourceDirectory o.describe)
  let excluded := [parent, w.root].filterMap fun p => (d.canonical p).toOption
  let target ←
    match d.locate true w.directory with
    | .ok l => pure l
    | .error o => Run.fail (.workspace w.directory o.describe)
  if d.isLink s.sourceDirectory then
    match d.copyLinked source excluded target with
    | .ok d => modify fun world => { world with disk := d }
    | .error name =>
      Run.fail (.workspace (Path.join s.sourceDirectory name) Disk.Obstacle.missing.describe)
  else if d.entry? source = some .directory then
    modify fun world => { world with disk := d.copyTree source excluded target }
  else Run.fail (.workspace s.sourceDirectory Disk.Obstacle.isDirectory.describe)
  if (Path.fileName? s.input).isNone then
    Run.fail (.invalidSettings ("input '" ++ s.input ++ "' has no file name"))
  if !(← Run.disk).isFile w.input then Run.fail (.missingAsset .document s.input none)
  Run.makeDirectories (.workspace w.figures) w.figures

def prepare (s : Settings) : Run WorkingCopy := do
  let parent := s.scratchParent.getD (← get).temporary
  Run.makeDirectories (.workspace parent) parent
  let d ← Run.disk
  let root := d.freshScratch (if Path.isAbsolute parent then parent else Path.join d.here.path parent)
  Run.change (.workspace parent) (·.makeDirectory root)
  let directory := Path.join root "work"
  let w : WorkingCopy := {
    root, directory
    input := Path.join directory ((Path.fileName? s.input).getD [])
    figures := Path.join directory s.figureDirectory, kept := s.keepScratch }
  try w.fill s parent
  catch e =>
    w.discard
    throw e
  return w

end WorkingCopy

end FloatFlattening
