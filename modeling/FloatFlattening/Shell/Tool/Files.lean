import FloatFlattening.Shell.Tool.Basic
/-!
Tools that look after files: those that show what there is, and those that make, move and remove.
-/

namespace FloatFlattening.Shell.Tool

/-- The names in a directory that are not hidden. -/
def visible (d : Disk) (p : Text) : List Text :=
  ((d.list p).toOption.getD []).filter (·.head? ≠ some '.')

def listFiles (t : Tool) : Action Nat :=
  t.given ['a', 'A', 'd', '1', 'r'] [] false (fun g => do
    let d := (← get).disk
    let ordered (names : List Text) : List Text := if g.has 'r' then names.reverse else names
    let lines (names : List Text) : Text := (ordered names).flatMap (· ++ ['\n'])
    let names (p : Text) : List Text :=
      if g.has 'a' then [['.'], ['.', '.']] ++ (d.list p).toOption.getD []
      else if g.has 'A' then (d.list p).toOption.getD []
      else visible d p
    let operands := (if g.operands.isEmpty then [['.']] else g.operands).mergeSort (· ≤ ·)
    let isThere (p : Text) : Bool := ((d.locate false p).toOption.bind d.entry?).isSome
    let status ← each operands fun p =>
      if isThere p then return 0
      else t.complain ("cannot access " ++ quoted p ++ ": No such file or directory") 2
    let there := operands.filter isThere
    let (directories, files) := there.partition fun p => d.isDirectory p && !g.has 'd'
    let isSingle := operands.length = 1
    let block (p : Text) : Text :=
      if isSingle then lines (names p) else p ++ ":\n" ++ lines (names p)
    let blocks := (if files.isEmpty then [] else [lines files]) ++ (ordered directories).map block
    printText (Text.joinWith "\n" blocks)
    return status) 2

/-- Where a link leads, or with `-f` the path without links. -/
def readLink (t : Tool) : Action Nat :=
  t.given ['f', 'e', 'n', 'm'] [] true fun g => do
    let d := (← get).disk
    each g.operands fun p => do
      match (d.locate false p).toOption.bind d.entry?, (d.locate true p).toOption with
      | entry, some l =>
        if g.has 'f' || g.has 'e' || g.has 'm' then
          printText (l.path ++ ['\n'])
          return 0
        else
          match entry with
          | some (.link target) =>
            printText (target ++ ['\n'])
            return 0
          | _ => return 1
      | _, none => return 1

def realPath (t : Tool) : Action Nat :=
  t.given ['e', 'm', 's'] [] true fun g =>
    each g.operands fun p => do
      match (← get).disk.locate true p with
      | .ok l =>
        printText (l.path ++ ['\n'])
        return 0
      | .error o => t.complain (plainReason p o)

/-! ## Directories -/

def makeDirectories (t : Tool) : Action Nat :=
  t.given ['p', 'v'] ['m'] true fun g =>
    each g.operands fun p =>
      t.onDisk ("cannot create directory " ++ quoted p)
        (if g.has 'p' then (·.makeDirectories p) else (·.makeDirectory p))

def removeDirectories (t : Tool) : Action Nat :=
  t.given ['p', 'v'] [] true fun g =>
    each g.operands fun p =>
      t.onDisk ("failed to remove " ++ quoted p) fun d => do
        let l ← d.locate false p
        match d.entry? l with
        | none => throw .missing
        | some .directory => if (← d.list p).isEmpty then return d.erase l else throw .notEmpty
        | some _ => throw .notDirectory

/-! ## Files -/

def remove (t : Tool) : Action Nat :=
  t.given ['r', 'R', 'f', 'd', 'i', 'v'] [] false fun g => do
    if g.operands.isEmpty ∧ !g.has 'f' then return ← t.hint "missing operand"
    let whole := g.has 'r' || g.has 'R'
    each g.operands fun p => do
      let d := (← get).disk
      match (d.locate false p).map d.entry? with
      | .ok none | .error .missing =>
        if g.has 'f' then return 0
        else t.complain ("cannot remove " ++ quoted p ++ ": No such file or directory")
      | _ =>
        t.onDisk ("cannot remove " ++ quoted p) fun d => do
          let l ← d.locate false p
          if whole then return d.eraseTree l else d.remove p

/-- The path in a directory for a file that is brought there. -/
def into (d : Disk) (source target : Text) : Text :=
  if d.isDirectory target then Path.join target ((Path.fileName? source).getD source) else target

/-- Brings files to the last of the paths. -/
def bring (t : Tool) (flags : List Char) (f : Given → Text → Text → Action Nat) : Action Nat :=
  t.given flags [] false fun g => do
    match g.operands with
    | [] => t.hint "missing file operand"
    | [p] => t.hint ("missing destination file operand after " ++ quoted p)
    | ps =>
      let target := ps.getLast?.getD []
      if 2 < ps.length ∧ !(← get).disk.isDirectory target then
        return ← t.complain ("target " ++ quoted target ++ ": No such file or directory")
      each ps.dropLast fun p => do
        let d := (← get).disk
        match (d.locate false p).map d.entry? with
        | .error o => t.complain ("cannot stat " ++ quoted p ++ ": " ++ reason o)
        | .ok none => t.complain ("cannot stat " ++ quoted p ++ ": No such file or directory")
        | .ok (some _) => f g p (into d p target)

/-- Whether two paths lead to one file. -/
def isSame (d : Disk) (p q : Text) : Bool :=
  match d.locate true p, d.locate true q with
  | .ok l, .ok k => l = k
  | _, _ => false

/-- A tree at another location. -/
def transplant (d : Disk) (old new : Location) : Disk :=
  let moved := d.entries.filter fun (k, _) => old.isPrefixOf k
  moved.foldl (fun d (k, e) => d.put (new ++ k.drop old.length) e) d

def copy (t : Tool) : Action Nat :=
  t.bring ['r', 'R', 'a', 'f', 'p', 'v'] fun g p target => do
    let d := (← get).disk
    let whole := g.has 'r' || g.has 'R' || g.has 'a'
    if d.isDirectory p ∧ !whole then
      t.complain ("-r not specified; omitting directory " ++ quoted p)
    else if isSame d p target then
      t.complain (quoted p ++ " and " ++ quoted target ++ " are the same file")
    else if d.isDirectory p then
      t.onDisk ("cannot create directory " ++ quoted target) fun d => do
        return transplant d (← d.locate true p) (← d.locate true target)
    else t.onDisk ("cannot create regular file " ++ quoted target) fun d => do
      match d.find? p with
      | some .device => d.write target []
      | _ => d.copy p target

def move (t : Tool) : Action Nat :=
  t.bring ['f', 'n', 'v', 'i'] fun _ p target => do
    if isSame (← get).disk p target then
      t.complain (quoted p ++ " and " ++ quoted target ++ " are the same file")
    else
      t.onDisk ("cannot move " ++ quoted p ++ " to " ++ quoted target) fun d => do
        let old ← d.locate false p
        let new ← d.locate false target
        return (transplant d old new).eraseTree old

def link (t : Tool) : Action Nat :=
  t.given ['s', 'f', 'n', 'v'] [] false fun g => do
    match g.operands with
    | target :: place :: _ =>
      let kind : Text := if g.has 's' then "symbolic" else "hard"
      t.onDisk ("failed to create " ++ kind ++ " link " ++ quoted place) fun d => do
        let l ← d.locate false (into d target place)
        if (d.entry? l).isSome ∧ !g.has 'f' then throw .exists
        if g.has 's' then return d.put l (.link target)
        match d.entry? (← d.locate false target) with
        | some e => return d.put l e
        | none => throw .missing
    | _ => t.hint "missing file operand"

def touch (t : Tool) : Action Nat :=
  t.given ['a', 'c', 'm', 'f', 'h'] ['d', 'r', 't'] false fun g => do
    if g.operands.isEmpty then return ← t.hint "missing file operand"
    each g.operands fun p =>
      t.onDisk ("cannot touch " ++ quoted p) fun d =>
        if (d.find? p).isSome || g.has 'c' then .ok d else d.write p []

/-- Whether a mode makes a file a program; nothing if it leaves that as it is. -/
def programMode? (mode : Text) : Option Bool :=
  if mode.all Char.isDigit then some (mode.any fun c => c.toNat % 2 = 1)
  else if mode.contains 'x' then some (!mode.contains '-')
  else if mode.contains '=' then some false
  else none

def isMode (mode : Text) : Bool :=
  let rest := mode.dropWhile fun c => (['u', 'g', 'o', 'a'] : List Char).contains c
  !mode.isEmpty && (mode.all (fun c => '0' ≤ c && c ≤ '7') ||
    (rest.head?.any (['+', '-', '='].contains ·) &&
      mode.all (['u', 'g', 'o', 'a', '+', '-', '=', 'r', 'w', 'x', 'X', 's', 't', ','].contains ·)))

/-- Makes files programs, or takes that from them. -/
def changeMode (t : Tool) : Action Nat := do
  match t.arguments with
  | [] => t.hint "missing operand"
  | [mode] => t.hint ("missing operand after " ++ quoted mode)
  | mode :: ps =>
    if !isMode mode then return ← t.hint ("invalid mode: " ++ quoted mode)
    each ps fun p =>
      t.onDisk ("cannot access " ++ quoted p) fun d => do
        let l ← d.locate true p
        match d.entry? l, programMode? mode with
        | none, _ => throw .missing
        | some (.file content _), some isProgram => return d.put l (.file content isProgram)
        | some _, _ => return d

end FloatFlattening.Shell.Tool
