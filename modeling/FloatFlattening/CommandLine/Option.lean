import FloatFlattening.Settings
import FloatFlattening.Text.Decimal
/-!
The options of the command line. Those with a value are parameters, the others switches. Most of
them can also be given by a variable of the environment.
-/

namespace FloatFlattening.CommandLine

inductive Switch
  | keepScratch
  | flattenTables
  | plainSections
  | noCrossReferences
  | inspectOnly
  | json
  | noProgress
  | verbose
  | quiet
  deriving DecidableEq, Repr

inductive Parameter
  | output
  | scratchParent
  | referenceDocument
  | bibliography
  | citationStyle
  | luaFilter
  | resolution
  | bibliographyTitle
  deriving DecidableEq, Repr

/-- The variable of an option: its name in capitals. -/
def variableOf (name : Text) : Text :=
  "TEX2DOCX_" ++ name.map fun c => if c = '-' then '_' else c.toUpper

namespace Switch

def all : List Switch := [
  keepScratch, flattenTables, plainSections, noCrossReferences, inspectOnly, json, noProgress,
  verbose, quiet]

theorem mem_all (s : Switch) : s ∈ all := by cases s <;> decide

def name : Switch → Text
  | keepScratch => "debug"
  | flattenTables => "flatten-tables"
  | plainSections => "no-number-sections"
  | noCrossReferences => "no-crossref"
  | inspectOnly => "inspect-only"
  | json => "json"
  | noProgress => "no-progress"
  | verbose => "verbose"
  | quiet => "quiet"

def letter? : Switch → Option Char
  | verbose => some 'v'
  | quiet => some 'q'
  | _ => none

def environmentName? : Switch → Option Text
  | inspectOnly => none
  | s => some (variableOf s.name)

end Switch

namespace Parameter

def all : List Parameter := [
  output, scratchParent, referenceDocument, bibliography, citationStyle, luaFilter, resolution,
  bibliographyTitle]

theorem mem_all (p : Parameter) : p ∈ all := by cases p <;> decide

def name : Parameter → Text
  | output => "output"
  | scratchParent => "temp-dir"
  | referenceDocument => "reference-doc"
  | bibliography => "bibliography"
  | citationStyle => "csl"
  | luaFilter => "lua-filter"
  | resolution => "dpi"
  | bibliographyTitle => "reference-title"

def letter? : Parameter → Option Char
  | output => some 'o'
  | _ => none

def environmentName (p : Parameter) : Text := variableOf p.name

/-- A resolution in range; a plus may come before it. -/
def resolution? (t : Text) : Option Nat :=
  let digits :=
    match t with
    | '+' :: d => d
    | d => d
  let n := Decimal.value digits
  if !digits.isEmpty ∧ digits.all Char.isDigit ∧ Draft.leastResolution ≤ n ∧
      n ≤ Draft.greatestResolution then some n
  else none

/-- Paths are not empty. -/
def accepts : Parameter → Text → Bool
  | resolution, t => (resolution? t).isSome
  | bibliographyTitle, _ => true
  | _, t => !t.isEmpty

end Parameter

end FloatFlattening.CommandLine
