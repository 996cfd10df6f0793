import FloatFlattening.Block.Basic
import FloatFlattening.Disk.File
import FloatFlattening.Fault
/-!
The files of images. A path is looked for in the directory of the document and then in its
graphics directories, as it is if it has an extension, and then with each of the known ones.
-/

namespace FloatFlattening.ImageFile

def extensions : List Text := ["pdf", "png", "jpg", "jpeg", "eps"]

/-- The places where the file of a path may be, the preferred ones first. -/
def candidates (directory : Text) (graphicsPaths : List Text) (path : Text) : List Text :=
  (directory :: graphicsPaths.map (Path.join directory)).flatMap fun place =>
    (if (Path.extension? path).isSome then [Path.join place path] else []) ++
      extensions.map fun e => Path.join place (path ++ "." ++ e)

def find? (d : Disk) (directory : Text) (graphicsPaths : List Text) (path : Text) : Option Text :=
  (candidates directory graphicsPaths path).find? d.isFile

/-- The paths of the images that a run needs, each with what needs it: all images of figures, then
those of the tables among the blocks. -/
def needed (o : Outline) (blocks : List Block) : List (Text × Text) :=
  (o.figures.flatMap fun f =>
    f.graphics.map fun g =>
      (g.path, f.name.id?.getD ("figure at line " ++ Text.ofNat (o.text.lineOf f.span.start)))) ++
  ((blocks.filter (·.kind = .table)).flatMap fun b => b.images.map fun i => (i.path, b.subject))

/-- Reports the first image that has no file. -/
def check (d : Disk) (directory : Text) (o : Outline) (blocks : List Block) : Except Fault Unit :=
  match (needed o blocks).find? fun (path, _) => (find? d directory o.graphicsPaths path).isNone with
  | none => .ok ()
  | some (path, subject) => .error (.missingAsset .image path subject)

end FloatFlattening.ImageFile
