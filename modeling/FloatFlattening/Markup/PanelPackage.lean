import FloatFlattening.Text.Pattern
import FloatFlattening.Text.Search
/-!
The package with which a document sets its panels, read off the packages it loads, else off the
commands it uses.
-/

namespace FloatFlattening

inductive PanelPackage
  | subfig
  | subfigure
  | subcaption
  | unspecified
  deriving DecidableEq, Repr

namespace PanelPackage

def name : PanelPackage → Text
  | subfig => "Subfig"
  | subfigure => "Subfigure"
  | subcaption => "Subcaption"
  | unspecified => "None"

/-- A `\usepackage` with its options, up to the brace before the package names. -/
def loading : Pattern :=
  .word "\\usepackage" ++ .blanks ++
    .opt (.word "[" ++ .many (· ≠ ']') ++ .word "]") ++ .blanks ++ .word "\x7b"

def loadingGroup : Pattern := loading ++ .many (· ≠ '}') ++ .word "\x7d"

/-- The names of the loaded packages, in order. -/
def loadedNames (t : Text) : List Text :=
  (loadingGroup.spans 0 t).flatMap fun s =>
    let loaded := Text.slice t s
    let names := loaded.drop ((loading.length? loaded).getD 0)
    (Text.splitCommas names.dropLast).map Text.trim

def ofName? (name : Text) : Option PanelPackage :=
  if name = "subcaption" then some subcaption
  else if name = "subfig" then some subfig
  else if name = "subfigure" then some subfigure
  else none

def ofUsage (t : Text) : PanelPackage :=
  if (Pattern.word "\\subfloat" ++ .wordEnd).occursIn t then subfig
  else if (Pattern.word "\\begin" ++ .blanks ++ .word "\x7bsubfigure\x7d").occursIn t then subcaption
  else if (Pattern.word "\\subfigure" ++ .blanks ++ .oneOf ["[", "\x7b"]).occursIn t then subfigure
  else unspecified

def ofText (t : Text) : PanelPackage := ((loadedNames t).findSome? ofName?).getD (ofUsage t)

end PanelPackage

end FloatFlattening
