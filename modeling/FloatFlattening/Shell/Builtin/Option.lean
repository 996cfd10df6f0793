import FloatFlattening.Shell.Builtin.Name
/-!
Options: those of the shell, and those that a script finds in its arguments.
-/

namespace FloatFlattening.Shell

namespace Builtin

def letters : List Char := ['b', 'E', 'h', 'i', 'I', 'm', 's', 'v', 'V', 'p']

def setLetter (on : Bool) (c : Char) : Action Unit := do
  let o := (← get).options
  let changed? : Option Options :=
    if c = 'e' then some { o with stopOnFailure := on }
    else if c = 'u' then some { o with refuseUnset := on }
    else if c = 'x' then some { o with trace := on }
    else if c = 'f' then some { o with plainNames := on }
    else if c = 'C' then some { o with keepFiles := on }
    else if c = 'a' then some { o with exportAll := on }
    else if c = 'n' then some { o with idle := on }
    else if letters.contains c then some o
    else none
  match changed? with
  | some o => modify ({ · with options := o })
  | none => Action.fail ("Illegal option " ++ (if on then ['-', c] else ['+', c]))

def optionNames : List (Text × Char) := [("errexit", 'e'), ("nounset", 'u'), ("xtrace", 'x'),
  ("noglob", 'f'), ("allexport", 'a'), ("notify", 'b'), ("noclobber", 'C'), ("interactive", 'i'),
  ("ignoreeof", 'I'), ("monitor", 'm'), ("noexec", 'n'), ("stdin", 's'), ("verbose", 'v'), ("vi", 'V'),
  ("emacs", 'E'), ("nolog", 'h'), ("debug", 'p')]

/-- Sets the options at the beginning of arguments. Tells the arguments that are left, and whether
they are to be those of the script even if there are none. -/
def setOptions : (arguments : List Text) → Action (List Text × Bool)
  | [] => return ([], false)
  | a :: rest => do
    match a with
    | sign :: c :: cs =>
      if sign ≠ '-' ∧ sign ≠ '+' then return (a :: rest, true)
      if a = "--" then return (rest, true)
      let on : Bool := sign = '-'
      if (c :: cs) = ['o'] then
        match rest with
        | [] => return ([], false)
        | name :: rest =>
          match optionNames.lookup name with
          | some c => setLetter on c
          | none => Action.fail ("Illegal option " ++ (if on then "-o " else "+o ") ++ name)
          setOptions rest
      else
        (c :: cs).forM (setLetter on)
        setOptions rest
    | _ => return if a = "-" then (rest, !rest.isEmpty) else (a :: rest, true)

def set (arguments : List Text) : Action Nat := do
  if arguments.isEmpty then
    let vs := (← get).bindings.filter (·.value.isSome)
    return ← output (listed [] vs).toBytes
  let (rest, isGiven) ← setOptions arguments
  if isGiven then
    modify ({ · with arguments := rest, optionIndex := 1, optionPlace := none })
  return 0

/-- What a reader of options has found. -/
structure Found where
  letter : Char
  /-- Whether there are no more. -/
  isLast : Bool := false
  argument : Option Text := none
  message : Text := []
  index : Nat
  place : Option Nat := none
  deriving DecidableEq, Repr

/-- The next option in arguments, from the one with the given index and a place within the one
before it on. An option that has a colon after it in `known` takes an argument. -/
def findOption (known : Text) (arguments : List Text) (index : Nat) (place : Option Nat) : Found :=
  let isQuiet := known.head? = some ':'
  let within := if index ≤ 1 then [] else (arguments.getD (index - 2) []).drop (place.getD (2 ^ 31))
  let next := arguments.getD (index - 1) []
  let (letters, index) : Text × Nat :=
    match within, next with
    | [], '-' :: c :: cs => (c :: cs, index + 1)
    | l, _ => (l, index)
  let reached := arguments.getD (index - 2) []
  match letters with
  | [] => { letter := '?', isLast := true, index }
  | c :: rest =>
    if within.isEmpty ∧ letters = ['-'] then { letter := '?', isLast := true, index }
    else
      let place : Option Nat := some (reached.length - rest.length)
      match if c = ':' then none else (known.dropWhile (· ≠ c)).tail? with
      | some signs =>
        if signs.head? ≠ some ':' then { letter := c, argument := some [], index, place }
        else if !rest.isEmpty then { letter := c, argument := some rest, index }
        else
          match arguments[index - 1]? with
          | some a => { letter := c, argument := some a, index := index + 1 }
          | none =>
            if isQuiet then { letter := ':', argument := some [c], index, place }
            else
              { letter := '?', message := "No arg for -" ++ [c] ++ " option\n", index, place }
      | none =>
        if isQuiet then { letter := '?', argument := some [c], index, place }
        else { letter := '?', message := "Illegal option " ++ ['-', c, '\n'], index, place }

/-- Puts the next option into a variable, and its argument into `OPTARG`. -/
def nextOption : List Text → Action Nat
  | known :: name :: given => do
    let s ← get
    let arguments := if given.isEmpty then s.arguments else given
    let (index, place) :=
      if arguments.length + 1 < s.optionIndex then (1, none) else (s.optionIndex, s.optionPlace)
    let o := findOption known arguments index place
    discard <| Action.write 2 o.message.toBytes
    if !o.isLast then
      match o.argument with
      | some a => Action.assign "OPTARG" a
      | none => modify (·.change "OPTARG" ({ · with value := none }))
    Action.assign "OPTIND" (Text.ofNat o.index)
    Action.assign name [o.letter]
    modify ({ · with optionIndex := o.index, optionPlace := o.place })
    return status (!o.isLast)
  | _ => Action.fail "Usage: getopts optstring var [arg...]"

end Builtin

end FloatFlattening.Shell
