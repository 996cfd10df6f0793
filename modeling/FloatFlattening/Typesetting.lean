import FloatFlattening.Png
import FloatFlattening.Run
import FloatFlattening.Settings
/-!
Typesetting blocks: each becomes a document of its own, a page and then a picture.
-/

namespace FloatFlattening

/-- A block that exists as a picture, with the float that shows it. -/
structure Picture where
  block : Nat
  file : Text
  width : Nat
  height : Nat
  markup : Text
  deriving DecidableEq, Repr

def Picture.replacement (p : Picture) : Replacement := ⟨p.block, p.markup⟩

namespace Typesetting

/-- The document that typesets a block by itself. -/
def document (s : Settings) (o : Outline) (b : Block) : Text :=
  Standalone.render (s.standaloneTemplate.getD Standalone.defaultTemplate)
    (Standalone.packages o.package o.needsCjk) (Standalone.graphicsPath o.graphicsPaths) b.body

def pageCall (s : Settings) (directory : Text) (b : Block) : Invocation :=
  ⟨s.programs.typesetter, ["-interaction=nonstopmode", "-halt-on-error", b.stem ++ ".tex"], directory⟩

def pictureCall (s : Settings) (directory : Text) (b : Block) : Invocation :=
  ⟨s.programs.pictureMaker,
    ["-png", "-singlefile", "-r", Text.ofNat s.resolution, b.stem ++ ".pdf", b.stem], directory⟩

def fault (program : Text) (b : Block) (status : Text) : Fault :=
  .tool .typesetFigure program b.subject status []

/-- Typesets the block with the given number, of `total`. -/
def block (tools : Toolchain) (s : Settings) (o : Outline) (directory : Text) (total number : Nat)
    (b : Block) : Run Picture := do
  Run.tell (.figureStarted b.subject (number + 1) total)
  let source := Path.join directory (b.stem ++ ".tex")
  Run.change (.workspace source) (·.write source (document s o b).toBytes)
  discard <| Run.call tools .typesetFigure b.subject (pageCall s directory b)
  let page := b.stem ++ ".pdf"
  if !(← Run.disk).isFile (Path.join directory page) then
    Run.fail (fault s.programs.typesetter b ("did not produce " ++ page))
  discard <| Run.call tools .typesetFigure b.subject (pictureCall s directory b)
  let file := Path.join directory (b.stem ++ ".png")
  match ((← Run.disk).read file).toOption.bind Png.size? with
  | none => Run.fail (fault s.programs.pictureMaker b "produced no readable PNG")
  | some (width, height) =>
    Run.tell (.figureDone b.subject (number + 1) total file)
    return { block := number, file, width, height, markup := s.markup b }

/-- Typesets all blocks, in order. -/
def blocks (tools : Toolchain) (s : Settings) (o : Outline) (directory : Text) (bs : List Block) :
    Run (List Picture) :=
  bs.zipIdx.mapM fun (b, number) => block tools s o directory bs.length number b

end Typesetting

end FloatFlattening
