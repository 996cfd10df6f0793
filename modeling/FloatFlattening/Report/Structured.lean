import FloatFlattening.Production
import FloatFlattening.Report.Json
/-!
Reports for other programs.
-/

namespace FloatFlattening

open Report

def Label.Kind.name : Label.Kind → Text
  | figure => "Figure"
  | panel => "Subfigure"
  | table => "Table"
  | equation => "Equation"
  | heading => "Section"

def Label.json (l : Label) : Json := .object [
  ("id", .text l.id), ("kind", .text l.kind.name), ("parent", .option .text l.parent),
  ("index", .natural l.index), ("letter", .option (fun c => .text [c]) l.letter),
  ("alias_of", .option .text l.aliasOf), ("line", .natural l.line)]

def Block.Kind.name : Block.Kind → Text
  | figure => "Figure"
  | table => "Table"

def Block.Image.json (i : Block.Image) : Json := .object [
  ("path", .text i.path), ("width", .option (fun s => .real s.toFloat) i.share),
  ("label", .option .text i.label), ("letter", .option (fun c => .text [c]) i.letter)]

def Block.Summary.json (b : Block.Summary) : Json := .object [
  ("kind", .text b.kind.name), ("line", .natural b.line), ("label", .option .text b.name.id?),
  ("synthetic_label", .bool b.name.isSynthetic), ("caption", .option .text b.caption),
  ("sub_images", .list (b.images.map (·.json))), ("image", .text b.image)]

def Survey.json (s : Survey) : Json := .object [
  ("input", .text s.input), ("figure_package", .text s.package.name),
  ("has_cjk", .bool s.needsCjk), ("graphics_paths", .list (s.graphicsPaths.map .text)),
  ("included_files", .list (s.includes.map .text)), ("figures", .natural s.figures),
  ("tables", .natural s.tables), ("equations", .natural s.equations),
  ("blocks", .list (s.blocks.map fun (stem, b) => .list [.text stem, b.json])),
  ("labels", .list (s.labels.map (·.json)))]

/-- A run has no clock: its times are all zero. -/
def Statistics.json (s : Statistics) : Json := .object [
  ("figures_found", .natural s.figures), ("multi_figures", .natural s.multiFigures),
  ("tables_flattened", .natural s.tablesFlattened), ("labels_registered", .natural s.labels),
  ("references", .natural s.references), ("references_rewritten", .natural s.referencesExchanged),
  ("numbering_directives_removed", .natural s.directivesRemoved),
  ("included_files", .natural s.includedFiles), ("rasterize_duration_ms", .natural 0),
  ("pandoc_duration_ms", .natural 0), ("total_duration_ms", .natural 0)]

def Production.json (p : Production) : Json := .object [
  ("output_path", .text p.output), ("latex", .text p.latex),
  ("blocks", .list (p.blocks.map (·.json))), ("labels", .list (p.labels.map (·.json))),
  ("stats", p.statistics.json), ("scratch_dir", .option .text p.scratch)]

end FloatFlattening
