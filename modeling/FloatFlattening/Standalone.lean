import FloatFlattening.Markup.PanelPackage
/-!
The document that typesets one block by itself, one level below the directory of the main
document.
-/

namespace FloatFlattening.Standalone

/-- `\@captype` lets panels print their letters outside a float. -/
def defaultTemplate : Text :=
  Text.joinWith "\n" [
    "\\documentclass[preview,border=2pt]\x7bstandalone\x7d",
    "\\usepackage\x7bgraphicx\x7d",
    "%%PACKAGES%%",
    "\\usepackage\x7bbooktabs\x7d",
    "\\usepackage\x7bmultirow\x7d",
    "\\usepackage\x7bmakecell\x7d",
    "\\usepackage\x7bsetspace\x7d",
    "\\usepackage\x7bsiunitx\x7d",
    "\\graphicspath\x7b%%GRAPHICSPATH%%\x7d",
    "\\makeatletter",
    "\\def\\@captype\x7bfigure\x7d",
    "\\makeatother",
    "\\begin\x7bdocument\x7d",
    "\\thispagestyle\x7bempty\x7d",
    "\\centering",
    "%%CONTENT%%",
    "\\end\x7bdocument\x7d",
    ""]

def contentSlot : Text := "%%CONTENT%%"

def loadPackage (name : Text) : Text := "\\usepackage\x7b" ++ name ++ "\x7d"

def panelPackageNames : PanelPackage → List Text
  | .subfig => ["subfig"]
  | .subfigure => ["subfigure"]
  | .subcaption => ["subcaption"]
  | .unspecified => []

/-- The lines that load the packages a block may need. -/
def packages (package : PanelPackage) (cjk : Bool) : Text :=
  Text.joinWith "\n" <|
    (panelPackageNames package ++ if cjk then [("xeCJK" : Text)] else []).map loadPackage

/-- A graphics directory of the main document, seen from one level below it. -/
def fromBelow (path : Text) : Text :=
  let path := if Text.endsWith path "/" then path else path ++ "/"
  if path.head? = some '/' then path else "../" ++ path

/-- The `\graphicspath` entries, the directory of the main document last. -/
def graphicsPath (paths : List Text) : Text :=
  (paths.map fromBelow ++ [("../" : Text)]).flatMap fun entry => "\x7b" ++ entry ++ "\x7d"

/-- Slots are filled in the order packages, graphics path, content. -/
def render (template packages graphicsPath content : Text) : Text :=
  (Pattern.word contentSlot).exchange content
    ((Pattern.word "%%GRAPHICSPATH%%").exchange graphicsPath
      ((Pattern.word "%%PACKAGES%%").exchange packages template))

end FloatFlattening.Standalone
