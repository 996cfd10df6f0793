import FloatFlattening.Program
import FloatFlattening.Text.Pattern
/-!
Programs whose responses are laid down beforehand, for a run without the real ones. A rule answers
the calls of one program, or just the one with a given number.
-/

namespace FloatFlattening

/-- A file that a program leaves, at a path that may name parts of the call. -/
structure Rehearsal.Product where
  path : Text
  content : Bytes
  deriving DecidableEq, Repr

structure Rehearsal.Rule where
  program : Text
  /-- How many calls of the program come before the one that is meant; any if not given. -/
  nth : Option Nat
  products : List Rehearsal.Product
  response : Response
  deriving DecidableEq, Repr

namespace Rehearsal

/-- The last argument without `.tex`. -/
def stem (i : Invocation) : Text :=
  let last := i.arguments.getLast?.getD []
  if Text.endsWith last ".tex" then last.take (last.length - 4) else last

/-- The argument after the first `-o`. -/
def output (i : Invocation) : Text :=
  ((i.arguments.dropWhile (· ≠ ("-o" : Text))).drop 1).head?.getD []

def Product.place (p : Product) (i : Invocation) : Text :=
  Path.join i.directory <|
    (Pattern.word "\x7bo\x7d").exchange (output i) ((Pattern.word "\x7bstem\x7d").exchange (stem i) p.path)

def Product.make (i : Invocation) (d : Disk) (p : Product) : Disk :=
  (d.write (p.place i) p.content).toOption.getD d

def Rule.answers (r : Rule) (earlier : List Invocation) (i : Invocation) : Bool :=
  r.program = i.program && r.nth.all (· = earlier.countP (·.program = i.program))

/-- The first rule that answers a call counts; a program without one is not found. -/
def toolchain (rules : List Rule) : Toolchain where
  respond earlier i d :=
    match rules.find? (·.answers earlier i) with
    | none => (.notFound, d)
    | some r => (r.response, r.products.foldl (Product.make i) d)

end Rehearsal

end FloatFlattening
