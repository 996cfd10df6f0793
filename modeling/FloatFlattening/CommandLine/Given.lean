import FloatFlattening.CommandLine.Option
import FloatFlattening.Text.Search
/-!
The arguments of a command. They are read in order; the first that is wrong ends the reading, and so
does the first that asks for help or for the version.
-/

namespace FloatFlattening.CommandLine

/-- What a command says. -/
structure Given where
  switches : List Switch := []
  values : List (Parameter × Text) := []
  input : Option Text := none
  deriving DecidableEq, Repr

/-- Why a command is not carried out. -/
inductive Stop
  | misuse
  | help
  | version
  deriving DecidableEq, Repr

namespace Given

/-- A switch is given once at most. -/
def addSwitch (g : Given) (s : Switch) : Except Stop Given :=
  if s ∈ g.switches then throw .misuse else return { g with switches := s :: g.switches }

def addValue (g : Given) (p : Parameter) (value : Text) : Except Stop Given :=
  if (g.values.lookup p).isSome ∨ !p.accepts value then throw .misuse
  else return { g with values := (p, value) :: g.values }

def addInput (g : Given) (path : Text) : Except Stop Given :=
  if g.input.isSome ∨ path.isEmpty then throw .misuse else return { g with input := some path }

/-- Reads letters after a dash. A parameter takes the rest of the letters as its value; it is left
over if there are none. -/
def addLetters (g : Given) : Text → Except Stop (Given × Option Parameter)
  | [] => return (g, none)
  | c :: t =>
    if c = 'h' then throw .help
    else if c = 'V' then throw .version
    else
      match Switch.all.find? (·.letter? = some c), Parameter.all.find? (·.letter? = some c) with
      | some s, _ => do (← g.addSwitch s).addLetters t
      | none, some p =>
        match t with
        | [] => return (g, some p)
        | '=' :: value => do return (← g.addValue p value, none)
        | value => do return (← g.addValue p value, none)
      | none, none => throw .misuse
termination_by t => t.length

/-- Reads an option by its name, with or without a value after an equals sign. -/
def addNamed (g : Given) (name : Text) (value : Option Text) : Except Stop (Given × Option Parameter) :=
  match Parameter.all.find? (·.name = name), value with
  | some p, none => return (g, some p)
  | some p, some value => do return (← g.addValue p value, none)
  | none, some _ => throw .misuse
  | none, none =>
    if name = "help" then throw .help
    else if name = "version" then throw .version
    else
      match Switch.all.find? (·.name = name) with
      | some s => do return (← g.addSwitch s, none)
      | none => throw .misuse

/-- An argument that is no option: it begins without a dash, or is one. -/
def isPlain (a : Text) : Bool := a.head? ≠ some '-' || a = "-"

def addOption (g : Given) : Text → Except Stop (Given × Option Parameter)
  | '-' :: '-' :: a =>
    let name := a.takeWhile (· ≠ '=')
    g.addNamed name (if name.length < a.length then some (a.drop (name.length + 1)) else none)
  | '-' :: a => g.addLetters a
  | _ => throw .misuse

/-- Reads arguments. After two dashes alone none of them is an option. -/
def addAll (g : Given) : List Text → Except Stop Given
  | [] => return g
  | a :: as =>
    if a = "--" then as.foldlM addInput g
    else if isPlain a then do (← g.addInput a).addAll as
    else do
      match ← g.addOption a, as with
      | (g, none), as => g.addAll as
      | (g, some p), value :: as =>
        if isPlain value then (← g.addValue p value).addAll as else throw .misuse
      | (_, some _), [] => throw .misuse
termination_by as => as.length

def ofArguments (as : List Text) : Except Stop Given :=
  if as.isEmpty then throw .misuse else addAll {} as

end Given

end FloatFlattening.CommandLine
