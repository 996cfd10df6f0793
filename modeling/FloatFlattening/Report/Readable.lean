import FloatFlattening.Production
/-!
Reports for people, with colours of a terminal.
-/

namespace FloatFlattening

namespace Report

def coloured (code : Nat) (t : Text) : Text := "\x1b[" ++ Text.ofNat code ++ "m" ++ t ++ "\x1b[0m"

def bold (t : Text) : Text := coloured 1 t

def dim (t : Text) : Text := coloured 2 t

def green (t : Text) : Text := coloured 32 t

def cyan (t : Text) : Text := coloured 36 t

def padEnd (width : Nat) (t : Text) : Text := t ++ List.replicate (width - t.length) ' '

/-- A line whose value begins in a fixed column. -/
def entry (name value : Text) : Text := padEnd 17 (name ++ ":") ++ value

def blockLine (stem : Text) (b : Block.Summary) : Text :=
  "  " ++ cyan "◆" ++ " " ++ padEnd 28 (b.name.id?.getD "(unlabelled)") ++ " line " ++
    padEnd 5 (Text.ofNat b.line) ++ " " ++ Text.ofNat b.images.length ++ " image(s)  " ++ dim stem

/-- A fault with the faults behind it; where there are several, they are numbered. -/
def fault (context : Text) (f : Fault) : Text :=
  let causes := f.message :: f.cause?.toList
  let lines (first further message : Text) : Text :=
    first ++ Text.joinWith ("\n" ++ further) (message.splitOn '\n')
  let reported : List Text :=
    match causes with
    | [message] => [lines "    " "    " message]
    | _ => causes.zipIdx.map fun (message, n) =>
      lines ("    " ++ Text.ofNat n ++ ": ") "       " message
  "Error: " ++ context ++ "\n\nCaused by:\n" ++ Text.joinWith "\n" reported ++ "\n"

end Report

open Report

def Survey.report (s : Survey) : Text :=
  let paths :=
    if s.graphicsPaths.isEmpty then []
    else [entry "Graphics path" (Text.joinWith ", " s.graphicsPaths)]
  let includes :=
    if s.includes.isEmpty then [] else [entry "Included files" (Text.ofNat s.includes.length)]
  let floats :=
    Text.ofNat s.figures ++ " figure(s), " ++ Text.ofNat s.tables ++ " table(s), " ++
      Text.ofNat s.equations ++ " equation block(s)"
  let blocks : List Text :=
    if s.blocks.isEmpty then ["Nothing to flatten."]
    else "To flatten:" :: s.blocks.map fun (stem, b) => blockLine stem b
  let lines : List Text := [
    entry "File" s.input, entry "Figure package" s.package.name,
    entry "CJK text" (if s.needsCjk then "true" else "false")]
  let lines := lines ++ paths ++ includes ++
    [entry "Floats" floats, entry "Labels" (Text.ofNat s.labels.length)] ++ blocks
  lines.flatMap (· ++ "\n")

def Production.summary (p : Production) : Text :=
  let s := p.statistics
  let scratch : Text :=
    match p.scratch with
    | none => []
    | some dir => "   " ++ cyan "scratch kept at" ++ " " ++ dir ++ "\n"
  green "✔" ++ "  " ++ Text.ofNat s.figures ++ " figure(s), " ++
    Text.ofNat (s.multiFigures + s.tablesFlattened) ++ " flattened, " ++
    Text.ofNat s.referencesExchanged ++ " reference(s) rewritten  0ms  →  " ++ bold p.output ++
    "\n" ++ scratch

end FloatFlattening
