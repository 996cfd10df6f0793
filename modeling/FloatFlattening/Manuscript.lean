import FloatFlattening.Disk.File
import FloatFlattening.Fault
import FloatFlattening.Markup.Command
import FloatFlattening.Markup.Comment
/-!
A document as one text: comments are taken out, and each `\include` and `\input` is exchanged for
the text of its file. All includes are found from the directory of the main file.
-/

namespace FloatFlattening

structure Manuscript where
  text : Text
  /-- The included files, each before those that it includes. -/
  includes : List Text
  deriving DecidableEq, Repr

namespace Manuscript

/-- How deep files may include one another. -/
def maxDepth : Nat := 16

def source (d : Disk) (p : Text) : Except Fault Text :=
  match d.read p with
  | .ok content => .ok (Text.ofBytes content)
  | .error .missing => .error (.missingAsset .document p none)
  | .error o => .error (.workspace p o.describe)

/-- The file of a name, else of the name with `.tex` after it. -/
def file? (d : Disk) (base name : Text) : Option Text :=
  if name.isEmpty then none
  else [Path.join base name, Path.join base (name ++ ".tex")].find? d.isFile

/-- A comment in place of an include that has no file. -/
def placeholder (c : Command) : Text :=
  "% tex2docx: missing \\" ++ c.name ++ "\x7b" ++ c.argument.trim ++ "\x7d\n"

/-- A text with the files that it includes, each as `expand` gives it. -/
def assemble (d : Disk) (base t : Text) (expand : Command → Text → Except Fault Manuscript) :
    Except Fault Manuscript := do
  let parts ← (Command.all t ["include", "input"]).traverse t fun c =>
    match file? d base c.argument.trim with
    | none => return (c.span, ⟨placeholder c, []⟩)
    | some file => return (c.span, ← expand c file)
  return {
    text := t.splice t.length 0 (parts.map fun (s, m) => (s, m.text))
    includes := parts.flatMap fun (_, m) => m.includes }

/-- A text, with files included in it up to a depth. -/
def expand (d : Disk) (base : Text) : (depth : Nat) → Text → Except Fault Manuscript
  | 0, t =>
    assemble d base t fun c _ =>
      throw <| .malformed ('\\' :: c.name) (t.lineOf c.span.start)
        ("includes nested deeper than " ++ Text.ofNat maxDepth ++ " levels at '" ++ c.argument.trim ++ "'")
  | depth + 1, t =>
    assemble d base t fun _ file => do
      let body ← source d file
      let m ← expand d base depth body.withoutComments
      return { m with includes := file :: m.includes }

def ofPath (d : Disk) (p : Text) : Except Fault Manuscript := do
  let t ← source d p
  expand d ((Path.parent? p).getD ".") maxDepth t.withoutComments

end Manuscript

end FloatFlattening
