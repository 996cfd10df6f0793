import FloatFlattening.Shell.Source
import FloatFlattening.Shell.Tool.Basic
/-!
Opening what streams are redirected to.
-/

namespace FloatFlattening.Shell

namespace Action

/-- The reason for which a file could not be used; what is `missing` has its own. -/
def reason (missing : Text) : Disk.Obstacle → Text
  | .missing | .notDirectory => missing
  | o => Tool.reason o

/-- The names of streams as files. -/
def streamNames : List (Text × Nat) := [("/dev/stdin", 0), ("/dev/stdout", 1), ("/dev/stderr", 2)]

def connectSource (stream : Nat) (b : Bytes) : Action Unit :=
  modify fun s =>
    let (s, k) := addSource s b
    s.connect stream k

/-- Connects a stream with a file. -/
def openFile (stream : Nat) (p : Text) (opening : Opening) : Action Bool := do
  let s ← get
  match (streamNames.lookup p).bind s.stream? with
  | some k =>
    set (s.connect stream k)
    return true
  | none =>
    let isKept := opening = .append || opening = .update
    let content := if isKept then (s.disk.read p).toOption.getD [] else []
    let opened : Except Disk.Obstacle (Disk × Location) := do
      if s.options.keepFiles ∧ opening = .replace ∧ s.disk.isFile p then throw .exists
      let d ← s.disk.write p content
      return (d, ← d.locate true p)
    match opened with
    | .ok (d, l) =>
      let file : OpenFile := ⟨l, if opening = .append then none else some 0⟩
      let k : Channel := if d.entry? l = some .device then .discarded else .file s.files.length
      set { s with disk := d, files := s.files ++ [file] }
      if opening = .update ∧ stream = 0 then connectSource stream content
      else modify (·.connect stream k)
      return true
    | .error o =>
      complain ("cannot create " ++ p ++ ": " ++ reason "Directory nonexistent" o)
      return false

def openSource (stream : Nat) (p : Text) : Action Bool := do
  let s ← get
  match (streamNames.lookup p).bind s.stream? with
  | some k =>
    set (s.connect stream k)
    return true
  | none =>
    match s.disk.read p with
    | .ok b =>
      connectSource stream b
      return true
    | .error .isDirectory =>
      connectSource stream []
      return true
    | .error o =>
      complain ("cannot open " ++ p ++ ": " ++ reason "No such file" o)
      return false

/-- Lets a stream lead to where another one leads. -/
def openStream (stream : Nat) (source : Text) : Action Bool := do
  let s ← get
  match source with
  | ['-'] =>
    set (s.close stream)
    return true
  | [c] =>
    if !c.isDigit then fail ("Syntax error: " ++ Flaw.badStream.describe)
    match s.stream? (c.toNat - '0'.toNat) with
    | some k =>
      set (s.connect stream k)
      return true
    | none =>
      complain ([c] ++ ": Bad file descriptor")
      return false
  | _ => fail ("Syntax error: " ++ Flaw.badStream.describe)

end Action

end FloatFlattening.Shell
