import FloatFlattening.Shell.Builtin.Basic
/-!
Signals: their names, how they are sent, and what is done when they come.
-/

namespace FloatFlattening.Shell

/-- The names of the signals, the end of the script being the first. Some only have a number. -/
def signalTexts : List Text := (["EXIT", "HUP", "INT", "QUIT", "ILL", "TRAP", "ABRT", "BUS", "FPE", "KILL",
  "USR1", "SEGV", "USR2", "PIPE", "ALRM", "TERM", "16", "CHLD", "CONT", "STOP", "TSTP", "TTIN", "TTOU",
  "URG", "XCPU", "XFSZ", "VTALRM", "PROF", "WINCH", "IO", "PWR", "SYS", "32", "33",
  "RTMIN"].map String.toList) ++
  ((List.range 15).map fun (k : Nat) => ("RTMIN+" : Text) ++ Text.ofNat (k + 1)) ++
  ((List.range 14).map fun (k : Nat) => ("RTMAX-" : Text) ++ Text.ofNat (14 - k)) ++ [("RTMAX" : Text)]

def signalNames : List (Text × Nat) := signalTexts.zip (List.range signalTexts.length)

/-- The name and the number of a signal, from the number `first` on if it is given by name. -/
def signal? (first : Nat) (t : Text) : Option (Text × Nat) :=
  if !t.isEmpty && t.all Char.isDigit then signalNames.find? (·.2 = Decimal.value t)
  else
    let name := t.map Char.toUpper
    signalNames.find? fun (known, n) => known = name && first ≤ n

namespace Builtin

/-- Sends a signal, which ends the script if it is the one meant and nothing else is to be done. -/
def send (name : Text) (number : Nat) (process : Text) : Action Nat := do
  if process.head? = some '%' then Action.fail ("No such job: " ++ process)
  let n ← count (if process.head? = some '-' then process.tail else process)
  if process ≠ Text.ofNat Session.process ∧ n ≠ 0 then
    Action.complain "No such process\n"
    return 1
  if number = 0 then return 0
  let ignored : List Text := ["CHLD", "CONT", "WINCH", "URG"]
  let s ← get
  match (s.whole.getD s.traps).lookup name with
  | some action =>
    if number = 9 then throw (.killed number)
    if !action.isEmpty then modify fun s => { s with signals := s.signals ++ [name] }
    return 0
  | none => if ignored.contains name then return 0 else throw (.killed number)

def killUsage : Text :=
  "Usage: kill [-s sigspec | -signum | -sigspec] [pid | job]... or\nkill -l [exitstatus]"

/-- The name of a signal by its number, or by the status of a command that it ended. -/
def signalOf (t : Text) : Action Nat := do
  let n ← count t
  match signalNames.find? (·.2 = if 128 < n then n - 128 else n) with
  | some (name, _ + 1) => output (name ++ ['\n']).toBytes
  | _ => Action.fail ("invalid signal number or exit status: " ++ t)

def kill (arguments : List Text) : Action Nat := do
  let sendAll (name : Text) (number : Nat) (processes : List Text) : Action Nat := do
    if processes.isEmpty then Action.fail killUsage
    let results ← processes.mapM (send name number)
    return status (results.all (· = 0))
  match arguments with
  | [] => Action.fail killUsage
  | a :: rest =>
    match a with
    | '-' :: t =>
      match signal? 1 t with
      | some (name, number) => sendAll name number rest
      | none =>
        match t with
        | ['l'] =>
          match rest with
          | [] =>
            let line (k : Text × Nat) : Text := k.1 ++ ['\n']
            output (Text.toBytes ("0\n" ++ signalNames.tail.flatMap line))
          | t :: _ => signalOf t
        | 's' :: given =>
          let (asked, rest) := if given.isEmpty then (rest.headD [], rest.tail) else (given, rest)
          match signal? 1 asked with
          | some (name, number) => sendAll name number rest
          | none => Action.fail ("invalid signal number or name: " ++ asked)
        | ['-'] => sendAll "TERM" 15 rest
        | c :: _ => Action.fail ("Illegal option " ++ ['-', c])
        | [] => sendAll "TERM" 15 arguments
    | _ => sendAll "TERM" 15 arguments

def trap (arguments : List Text) : Action Nat := do
  match (← options [] arguments).2 with
  | [] =>
    let traps := (← get).traps
    let line (k : Text × Nat) : Text :=
      match traps.lookup k.1 with
      | some action => "trap -- " ++ quoted action ++ " " ++ k.1 ++ "\n"
      | none => []
    output (Text.toBytes (signalNames.flatMap line))
  | a :: rest =>
    let isReset := rest.isEmpty || a = "-" || (!a.isEmpty && a.all Char.isDigit)
    let names := if rest.isEmpty || (isReset && a ≠ "-") then a :: rest else rest
    for name in names do
      match signal? 0 name with
      | none =>
        discard <| Action.write 2 (Text.toBytes ("trap: " ++ name ++ ": bad trap\n"))
        return 1
      | some (name, _) =>
        modify fun s =>
          let others := s.traps.filter (·.1 ≠ name)
          { s with traps := if isReset then others else others ++ [(name, a)] }
    return 0

/-- How the last of the given jobs ended. -/
def wait (arguments : List Text) : Action Nat := do
  let (_, processes) ← options [] arguments
  let ended ← processes.mapM fun p => do
    if p.head? = some '%' then Action.fail ("No such job: " ++ p)
    let n ← count p
    return ((← get).jobs.reverse[n - (Session.process + 1)]?).getD 127
  return (ended.getLast?).getD 0

end Builtin

end FloatFlattening.Shell
