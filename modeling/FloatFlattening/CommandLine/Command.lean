import FloatFlattening.CommandLine.Options
import FloatFlattening.Report.Readable
import FloatFlattening.Report.Structured
import FloatFlattening.Settings.Bibliography
/-!
Commands: what the program prints and how it ends, given its arguments and the environment.
-/

namespace FloatFlattening.CommandLine

/-- What a command leaves besides the disk. -/
structure Outcome where
  code : Nat
  stdout : Text := []
  stderr : Text := []
  deriving DecidableEq, Repr

namespace Outcome

def usage : Text := "Usage: tex2docx [OPTIONS] <INPUT>\n"

def ofStop : Stop → Outcome
  | .misuse => { code := 2, stderr := usage }
  | .help => { code := 0, stdout := usage }
  | .version => { code := 0, stdout := "tex2docx 0.3.0\n" }

def ofFault (context : Text) (f : Fault) : Outcome :=
  { code := 1, stderr := Report.fault context f }

/-- Blocks that overlap have no fault to tell of. -/
def ofFailure (context : Text) : Failure → Outcome
  | .fault f => ofFault context f
  | .overlap => { code := 101 }

def ofSurvey (o : Options) (s : Survey) : Outcome :=
  { code := 0, stdout := if o.isOn .json then s.json.print [] ++ "\n" else s.report }

def ofProduction (o : Options) (p : Production) : Outcome :=
  if o.isOn .json then { code := 0, stdout := p.json.print [] ++ "\n" }
  else { code := 0, stderr := if o.isOn .quiet then [] else p.summary }

end Outcome

namespace Options

/-- Carries out a command. -/
def run (o : Options) (tools : Toolchain) (temporary : Text) (d : Disk) : Outcome × Disk :=
  match o.draft.settle d with
  | .error f => (.ofFault "Invalid configuration" f, d)
  | .ok s =>
    if o.isOn .inspectOnly then
      match Survey.ofSettings s d with
      | .error f => (.ofFault "Failed to inspect document" f, d)
      | .ok survey => (.ofSurvey o survey, d)
    else
      match Run.outcome (Production.run tools s) { disk := d, temporary } with
      | (.error f, w) => (.ofFailure ("Conversion of " ++ o.input ++ " failed") f, w.disk)
      | (.ok p, w) => (.ofProduction o p, w.disk)

end Options

/-- The directory for scratch work that the environment names. -/
def temporary (environment : Variables) : Text := (environment.lookup ("TMPDIR" : Text)).getD "/tmp"

/-- The whole program, for programs that are found by the environment. -/
def run (tools : Variables → Toolchain) (arguments : List Text) (environment : Variables) (d : Disk) :
    Outcome × Disk :=
  match Given.ofArguments arguments >>= (Options.ofGiven · environment) with
  | .error stop => (.ofStop stop, d)
  | .ok o => o.run (tools environment) (temporary environment) d

end FloatFlattening.CommandLine
