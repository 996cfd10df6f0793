import FloatFlattening.Fault
import FloatFlattening.FloatMarkup
import FloatFlattening.Path
import FloatFlattening.Standalone
import FloatFlattening.Text.Quote
/-!
The settings of a run. A `Draft` is checked before it becomes `Settings`.
-/

namespace FloatFlattening

/-- The external programs, by name or path. -/
structure Programs where
  documentWriter : Text := "pandoc"
  crossReferences : Text := "pandoc-crossref"
  typesetter : Text := "xelatex"
  pictureMaker : Text := "pdftocairo"
  deriving DecidableEq, Repr

structure Settings where
  input : Text
  output : Text
  /-- Where the scratch directory is made; the system's place if not given. -/
  scratchParent : Option Text := none
  /-- The document whose styles are used. -/
  referenceDocument : Option Text := none
  bibliography : Option Text := none
  citationStyle : Option Text := none
  luaFilter : Option Text := none
  keepScratch : Bool := false
  /-- Dots per inch of the images. -/
  resolution : Nat := 600
  flattenTables : Bool := false
  numberSections : Bool := true
  crossReferences : Bool := true
  bibliographyTitle : Text := "References"
  /-- The directory for the images, inside the working copy. -/
  figureDirectory : Text := "_multifig"
  figureTemplate : Option Text := none
  tableTemplate : Option Text := none
  standaloneTemplate : Option Text := none
  programs : Programs := {}
  reportsProgress : Bool := false
  deriving DecidableEq, Repr

namespace Settings

/-- The directory of the main document. -/
def sourceDirectory (s : Settings) : Text :=
  match (Path.parent? s.input).filter (· ≠ []) with
  | none => "."
  | some p => p

def inputStem (s : Settings) : Text := (Path.stem? s.input).getD "document"

/-- The template of the float that stands for a block. -/
def template (s : Settings) : Block.Kind → Text
  | .figure => s.figureTemplate.getD FloatMarkup.defaultFigure
  | .table => s.tableTemplate.getD FloatMarkup.defaultTable

/-- The float that stands for a block. -/
def markup (s : Settings) (b : Block) : Text :=
  FloatMarkup.render (s.template b.kind) (b.imagePath s.figureDirectory) b.caption b.name.id?

def blocks (s : Settings) (o : Outline) : Except Fault (List Block) :=
  Block.ofOutline s.flattenTables o

def require (holds : Bool) (detail : Text) : Except Fault Unit :=
  if holds then .ok () else .error (.invalidSettings detail)

def isSingleName (name : Text) : Bool :=
  !name.isEmpty && !name.contains '/' && !name.contains '\\' && name ≠ "." && name ≠ ".."

def check (s : Settings) : Except Fault Unit := do
  require (!s.input.isEmpty) "input path is empty"
  require (!s.output.isEmpty) "output path is empty"
  require (isSingleName s.figureDirectory)
    ("figure directory name must be a single path component, got '" ++ s.figureDirectory ++ "'")
  require (s.figureTemplate.all (Text.occursIn FloatMarkup.imageSlot))
    "figure template must contain the \x7bimage\x7d placeholder"
  require (s.tableTemplate.all (Text.occursIn FloatMarkup.imageSlot))
    "table template must contain the \x7bimage\x7d placeholder"
  require (s.standaloneTemplate.all (Text.occursIn Standalone.contentSlot))
    "standalone template must contain the %%CONTENT%% placeholder"

end Settings

structure Draft where
  settings : Settings
  /-- Whether to look for a bibliography beside the main document when none is given. -/
  findBibliography : Bool := true
  deriving DecidableEq, Repr

namespace Draft

def ofPaths (input output : Text) : Draft := { settings := { input, output } }

def leastResolution : Nat := 150

def greatestResolution : Nat := 1200

/-- A resolution out of range is moved to the nearer end of it. -/
def setResolution (d : Draft) (dpi : Nat) : Draft :=
  { d with settings.resolution := max leastResolution (min greatestResolution dpi) }

end Draft

end FloatFlattening
