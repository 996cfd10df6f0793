import FloatFlattening.ImageFile
import FloatFlattening.Manuscript
import FloatFlattening.Numbering.OfOutline
import FloatFlattening.Typesetting
import FloatFlattening.WordExport
import FloatFlattening.WorkingCopy
/-!
The production of a Word document from a LaTeX document, and the survey that tells beforehand what
would be flattened. A production that fails leaves the output as it was.
-/

namespace FloatFlattening

/-- A block as it is told of. -/
structure Block.Summary where
  kind : Block.Kind
  line : Nat
  name : FloatName
  caption : Option Text
  images : List Block.Image
  /-- The image that stands for the block. -/
  image : Text
  deriving DecidableEq, Repr

def Block.summary (s : Settings) (b : Block) : Block.Summary :=
  ⟨b.kind, b.line, b.name, b.caption, b.images, b.imagePath s.figureDirectory⟩

structure Survey where
  input : Text
  package : PanelPackage
  needsCjk : Bool
  graphicsPaths : List Text
  includes : List Text
  figures : Nat
  tables : Nat
  equations : Nat
  /-- Each with its stem. -/
  blocks : List (Text × Block.Summary)
  labels : List Label
  deriving DecidableEq, Repr

/-- Reads a document without changing anything. -/
def Survey.ofSettings (s : Settings) (d : Disk) : Except Fault Survey := do
  let m ← Manuscript.ofPath d s.input
  let o ← Outline.ofText m.text
  let n ← Numbering.ofOutline o
  let blocks ← s.blocks o
  return {
    input := s.input, package := o.package, needsCjk := o.needsCjk, graphicsPaths := o.graphicsPaths
    includes := m.includes, figures := o.figures.length, tables := o.tables.length
    equations := o.equations.length, blocks := blocks.map fun b => (b.stem, b.summary s)
    labels := n.labels }

structure Statistics where
  figures : Nat
  multiFigures : Nat
  tablesFlattened : Nat
  labels : Nat
  references : Nat
  referencesExchanged : Nat
  directivesRemoved : Nat
  includedFiles : Nat
  deriving DecidableEq, Repr

structure Production where
  output : Text
  /-- The flattened document. -/
  latex : Text
  blocks : List Block.Summary
  labels : List Label
  statistics : Statistics
  /-- The scratch directory, if it is kept. -/
  scratch : Option Text
  deriving DecidableEq, Repr

namespace Production

/-- The files that the settings name. -/
def assets (s : Settings) : List (Asset × Option Text) :=
  [(.document, s.input), (.referenceDocument, s.referenceDocument), (.bibliography, s.bibliography),
    (.citationStyle, s.citationStyle), (.luaFilter, s.luaFilter)]

def checkAssets (s : Settings) (d : Disk) : Except Fault Unit :=
  (assets s).forM fun (asset, path) =>
    match path.filter fun p => !d.isFile p with
    | none => .ok ()
    | some p => .error (.missingAsset asset p none)

/-- Moves a document to its place by way of a file beside it, so that no reader sees half of it. -/
def place (produced output : Text) : Run Unit := do
  let fault := Fault.outputNotWritten output
  if let some parent := (Path.parent? output).filter (· ≠ []) then
    Run.makeDirectories fault parent
  let beside := Path.withFileName output ((Path.fileName? output).getD [] ++ ".tmp")
  Run.change fault (·.copy produced beside)
  try Run.change fault (·.rename beside output)
  catch e =>
    modify fun w => { w with disk := (w.disk.remove beside).toOption.getD w.disk }
    throw e

/-- Whether a file holds anything. -/
def isEmptyFile (d : Disk) (p : Text) : Bool :=
  match d.find? p with
  | none | some (.file [] _) => true
  | _ => false

/-- Calls for the Word document and gives the place where it was written. -/
def writeDocument (tools : Toolchain) (s : Settings) (w : WorkingCopy) (graphicsPaths : List Text)
    (name : Text) : Run Text := do
  let document := Path.join w.root (s.inputStem ++ ".docx")
  let here := (← Run.disk).here.path
  discard <| Run.call tools .writeDocument name
    (WordExport.call s here w.directory name document graphicsPaths)
  if isEmptyFile (← Run.disk) document then
    Run.fail (.tool .writeDocument s.programs.documentWriter name "produced no output" [])
  return document

/-- The production in a working copy. -/
def inCopy (tools : Toolchain) (s : Settings) (w : WorkingCopy) : Run Production := do
  Run.tell (.stage .reading)
  let m ← Manuscript.ofPath (← Run.disk) w.input
  let o ← Outline.ofText m.text
  let n ← Numbering.ofOutline o
  Run.tell (.stage .collecting)
  let blocks ← s.blocks o
  ImageFile.check (← Run.disk) w.directory o blocks
  Run.tell (.stage .typesetting)
  let pictures ← Typesetting.blocks tools s o w.figures blocks
  Run.tell (.stage .flattening)
  let f ← Flattened.ofText m.text n blocks (pictures.map Picture.replacement)
  let name := s.inputStem ++ "_modified.tex"
  let file := Path.join w.directory name
  Run.change (.workspace file) (·.write file f.text.toBytes)
  Run.tell (.stage .writing)
  let document ← writeDocument tools s w o.graphicsPaths name
  place document s.output
  Run.tell (.done s.output)
  return {
    output := s.output, latex := f.text, blocks := blocks.map (Block.summary s), labels := n.labels
    statistics := {
      figures := o.figures.length
      multiFigures := blocks.countP (·.kind = .figure)
      tablesFlattened := blocks.countP (·.kind = .table)
      labels := n.labels.length, references := f.references
      referencesExchanged := f.referencesExchanged, directivesRemoved := f.directivesRemoved
      includedFiles := m.includes.length }
    scratch := if w.kept then some w.root else none }

def run (tools : Toolchain) (s : Settings) : Run Production := do
  checkAssets s (← Run.disk)
  Run.tell (.stage .preparing)
  let w ← WorkingCopy.prepare s
  try inCopy tools s w
  finally w.discard

end Production

end FloatFlattening
