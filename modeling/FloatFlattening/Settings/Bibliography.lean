import FloatFlattening.Disk.File
import FloatFlattening.Settings
/-!
The bibliography beside a document: the first file whose extension is `bib`.
-/

namespace FloatFlattening

def Disk.bibliography? (d : Disk) (directory : Text) : Option Text :=
  match d.list directory with
  | .error _ => none
  | .ok names =>
    (names.map (Path.join directory)).find? fun p =>
      d.isFile p && Path.extension? p = some "bib"

/-- Settings that have been checked, with a bibliography if one is to be found. -/
def Draft.settle (draft : Draft) (d : Disk) : Except Fault Settings := do
  let s := draft.settings
  s.check
  if s.bibliography.isNone ∧ draft.findBibliography then
    return { s with bibliography := d.bibliography? s.sourceDirectory }
  else return s

end FloatFlattening
