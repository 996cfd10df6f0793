import FloatFlattening.Shell.Executable
import FloatFlattening.Shell.Tool.Files
import FloatFlattening.Shell.Tool.Lines
import FloatFlattening.Shell.Tool.Printing
/-!
The tools by their names.
-/

namespace FloatFlattening.Shell.Tool

/-- What the tools do that print what they are given. -/
def printing : List (Text × (Tool → Action Nat)) := [
  ("true", fun _ => return 0), ("false", fun _ => return 1),
  ("echo", fun t => do
    print (echoed true false t.arguments)
    return 0),
  ("pwd", fun _ => do
    printText ((← get).disk.here.path ++ ['\n'])
    return 0),
  ("printf", printFormat), ("test", fun t => t.test t.arguments), ("[", bracket),
  ("seq", sequenceOf), ("expr", calculate), ("basename", baseName), ("dirname", directoryName),
  ("sleep", sleep)]

/-- What the tools do that print parts of files. -/
def reading : List (Text × (Tool → Action Nat)) := [
  ("cat", concatenate), ("head", (excerpts · Extent.head)), ("tail", (excerpts · Extent.tail)),
  ("wc", counts), ("sort", sort), ("uniq", unique), ("tac", backwards), ("cut", cut),
  ("tr", exchange), ("tee", copyInput)]

/-- What the tools do that look after files. -/
def keeping : List (Text × (Tool → Action Nat)) := [
  ("ls", listFiles), ("readlink", readLink), ("realpath", realPath), ("mkdir", makeDirectories),
  ("rmdir", removeDirectories), ("rm", remove), ("cp", copy), ("mv", move), ("ln", link),
  ("touch", touch), ("chmod", changeMode)]

/-- What a program of the system does, other than one that runs others. -/
def run? (program : Text) : Option (Tool → Action Nat) :=
  (printing ++ reading ++ keeping).lookup program

end FloatFlattening.Shell.Tool
