import FloatFlattening.Text.Search
/-!
What can go wrong in a run. Each fault ends the run; only references to undefined labels are
gathered into one fault.
-/

namespace FloatFlattening

inductive Asset
  | document
  | image
  | bibliography
  | citationStyle
  | referenceDocument
  | luaFilter
  deriving DecidableEq, Repr

def Asset.describe : Asset → Text
  | document => "LaTeX document"
  | image => "Image"
  | bibliography => "Bibliography file"
  | citationStyle => "Citation style file"
  | referenceDocument => "Reference document"
  | luaFilter => "Lua filter"

/-- What an external program was asked to do. -/
inductive Task
  | typesetFigure
  | writeDocument
  deriving DecidableEq, Repr

def Task.describe : Task → Text
  | typesetFigure => "Rasterisation"
  | writeDocument => "Document conversion"

/-- A reference to a label that does not exist, with the line of its first use. -/
structure Dangling where
  target : Text
  line : Nat
  deriving DecidableEq, Repr

def Dangling.describe (d : Dangling) : Text :=
  "'" ++ d.target ++ "' (line " ++ Text.ofNat d.line ++ ")"

inductive Fault
  | malformed (construct : Text) (line : Nat) (detail : Text)
  | duplicateLabel (label : Text) (first second : Nat)
  | undefinedReferences (references : List Dangling)
  | missingAsset (asset : Asset) (path : Text) (figure : Option Text)
  | tool (task : Task) (program subject status diagnostics : Text)
  | workspace (path cause : Text)
  | outputNotWritten (path cause : Text)
  | invalidSettings (detail : Text)
  deriving DecidableEq, Repr

namespace Fault

def neededBy : Option Text → Text
  | none => []
  | some figure => " (needed by figure '" ++ figure ++ "')"

def message : Fault → Text
  | malformed construct line detail =>
    "Malformed " ++ construct ++ " near line " ++ Text.ofNat line ++ ": " ++ detail
  | duplicateLabel label first second =>
    "Duplicate label '" ++ label ++ "' (line " ++ Text.ofNat first ++ " and line " ++
      Text.ofNat second ++ ")"
  | undefinedReferences references =>
    Text.ofNat references.length ++ " unresolved reference(s): " ++
      Text.joinWith ", " (references.map Dangling.describe) ++
      "\nDefine the missing \\label\x7b…\x7d or fix the reference."
  | missingAsset asset path figure =>
    asset.describe ++ " not found: '" ++ path ++ "'" ++ neededBy figure
  | tool task program subject status diagnostics =>
    task.describe ++ " failed for '" ++ subject ++ "': " ++ program ++ " " ++ status ++ "\n" ++
      diagnostics
  | workspace path cause => "Scratch workspace error at '" ++ path ++ "': " ++ cause
  | outputNotWritten path cause => "Failed to write output file '" ++ path ++ "': " ++ cause
  | invalidSettings detail => "Invalid configuration: " ++ detail

/-- The fault behind a fault, which a report of it names too. -/
def cause? : Fault → Option Text
  | workspace _ cause => some cause
  | outputNotWritten _ cause => some cause
  | _ => none

end Fault

end FloatFlattening
