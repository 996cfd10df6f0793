import FloatFlattening.Program
import FloatFlattening.Settings
/-!
The call that writes the Word document from the flattened one.
-/

namespace FloatFlattening.WordExport

def option (name : Text) : Option Text → List Text
  | none => []
  | some value => [name, value]

/-- The directories in which images are looked for, the document's own first. -/
def resourcePath (graphicsPaths : List Text) : Text :=
  Text.joinWith ":" (("." : Text) :: (graphicsPaths.map Disk.trimSlashes).filter (· ≠ []))

/-- A citation style only matters where there is a bibliography. -/
def bibliography (s : Settings) (absolute : Text → Text) : List Text :=
  match s.bibliography with
  | none => []
  | some file =>
    let title : Text := "reference-section-title=" ++ s.bibliographyTitle
    let arguments : List Text := ["-M", title, "--citeproc", "--bibliography", absolute file]
    arguments ++ option "--csl" (s.citationStyle.map absolute)

/-- The arguments in groups; `absolute` makes paths independent of the directory of the call. -/
def arguments (s : Settings) (absolute : Text → Text) (name document : Text)
    (graphicsPaths : List Text) : List (List Text) := [
  [name, "-o", absolute document],
  option "--lua-filter" (s.luaFilter.map absolute),
  if s.crossReferences then ["--filter", s.programs.crossReferences] else [],
  option "--reference-doc" (s.referenceDocument.map absolute),
  if s.numberSections then ["--number-sections"] else [],
  ["-M", "autoEqnLabels", "-M", "tableEqns", "-t", "docx+native_numbering"],
  ["--resource-path", resourcePath graphicsPaths],
  bibliography s absolute]

/-- The program runs in `directory`; the paths of the settings begin in `here`. -/
def call (s : Settings) (here directory name document : Text) (graphicsPaths : List Text) :
    Invocation :=
  ⟨s.programs.documentWriter,
    (arguments s (Path.absolute here) name document graphicsPaths).flatten, directory⟩

end FloatFlattening.WordExport
