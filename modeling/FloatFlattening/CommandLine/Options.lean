import FloatFlattening.CommandLine.Given
/-!
The options that hold: what a command says, and where it says nothing, what the environment says.
-/

namespace FloatFlattening.CommandLine

abbrev Variables := List (Text × Text)

structure Options where
  input : Text
  switches : List Switch
  values : List (Parameter × Text)
  deriving DecidableEq, Repr

namespace Options

/-- Whether a switch is on; its variable has to be `true` or `false`. -/
def switch (g : Given) (environment : Variables) (s : Switch) : Except Stop Bool :=
  if s ∈ g.switches then return true
  else
    match s.environmentName?.bind (environment.lookup ·) with
    | none => return false
    | some t =>
      if t = "true" then return true else if t = "false" then return false else throw .misuse

def value (g : Given) (environment : Variables) (p : Parameter) : Except Stop (Option Text) :=
  match g.values.lookup p with
  | some t => return some t
  | none =>
    match environment.lookup p.environmentName with
    | none => return none
    | some t => if p.accepts t then return some t else throw .misuse

def ofGiven (g : Given) (environment : Variables) : Except Stop Options := do
  let switches ← Switch.all.filterM (switch g environment)
  let values ← Parameter.all.filterMapM fun p => do
    return (← value g environment p).map (p, ·)
  match g.input with
  | none => throw .misuse
  | some input => return { input, switches, values }

def isOn (o : Options) (s : Switch) : Bool := o.switches.contains s

def value? (o : Options) (p : Parameter) : Option Text := o.values.lookup p

/-- Progress is shown where nothing else is printed in its way. -/
def showsProgress (o : Options) : Bool :=
  !([.quiet, .noProgress, .json, .inspectOnly] : List Switch).any o.isOn

def draft (o : Options) : Draft :=
  let d := Draft.ofPaths o.input ((o.value? .output).getD (Path.withExtension o.input "docx"))
  let s := { d.settings with
    scratchParent := o.value? .scratchParent
    referenceDocument := o.value? .referenceDocument
    bibliography := o.value? .bibliography
    citationStyle := o.value? .citationStyle
    luaFilter := o.value? .luaFilter
    keepScratch := o.isOn .keepScratch
    flattenTables := o.isOn .flattenTables
    numberSections := !o.isOn .plainSections
    crossReferences := !o.isOn .noCrossReferences
    bibliographyTitle := (o.value? .bibliographyTitle).getD d.settings.bibliographyTitle
    reportsProgress := o.showsProgress }
  let d := { d with settings := s }
  match (o.value? .resolution).bind Parameter.resolution? with
  | none => d
  | some dpi => d.setResolution dpi

end Options

end FloatFlattening.CommandLine
