import FloatFlattening.Settings
/-!
Settings written out for diagnosis, in one line. The templates are left out.
-/

namespace FloatFlattening

namespace Description

def flag (b : Bool) : Text := if b then "true" else "false"

def optional : Option Text → Text
  | none => "None"
  | some t => "Some(" ++ t ++ ")"

def record (name : Text) (fields : List (Text × Text)) : Text :=
  name ++ " \x7b " ++ Text.joinWith ", " (fields.map fun (key, value) => key ++ ": " ++ value) ++ " \x7d"

end Description

open Description

def Programs.describe (p : Programs) : Text :=
  record "ToolPrograms" [
    ("pandoc", p.documentWriter.quote), ("crossref_filter", p.crossReferences.quote),
    ("latex", p.typesetter.quote), ("pdf_to_png", p.pictureMaker.quote)]

def Settings.describe (s : Settings) : Text :=
  let path (p : Option Text) : Text := optional (p.map Text.quote)
  record "ConversionConfig" [
    ("input", s.input.quote), ("output", s.output.quote), ("temp_dir", path s.scratchParent),
    ("reference_doc", path s.referenceDocument), ("bibliography", path s.bibliography),
    ("csl", path s.citationStyle), ("lua_filter", path s.luaFilter), ("debug", flag s.keepScratch),
    ("dpi", Text.ofNat s.resolution), ("flatten_tables", flag s.flattenTables),
    ("number_sections", flag s.numberSections), ("crossref", flag s.crossReferences),
    ("tools", s.programs.describe),
    ("progress_callback", if s.reportsProgress then "Some(\"<dyn ConversionProgressCallback>\")" else "None")]

def Draft.describe (d : Draft) : Text :=
  record "ConversionConfigBuilder" [
    ("config", d.settings.describe), ("auto_bibliography", flag d.findBibliography)]

end FloatFlattening
