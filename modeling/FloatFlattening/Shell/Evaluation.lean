import FloatFlattening.Shell.Expansion
import FloatFlattening.Shell.Invocation
import FloatFlattening.Shell.Outcome
import FloatFlattening.Shell.Reading
import FloatFlattening.Shell.Tool
/-!
Running scripts. A script that takes more steps than it is given is killed. Where a failure is
`tested`, as in a condition, it does not end a script that failures would end.
-/

namespace FloatFlattening.Shell.Action

/-- How many functions may call one another. -/
def maxDepth : Nat := 1000

/-- The line that tells of a command before it runs. -/
def traceLine (mark : Text) (values : List (Text × Text)) (fields : List Text) : Text :=
  let words := values.map (fun (name, value) => name ++ ['='] ++ value) ++ fields
  mark ++ Text.joinWith " " words ++ "\n"

mutual

/-- `divides` tells that unquoted text is part of a value. -/
def items : (fuel : Nat) → (divides : Bool) → Part → Action (List Item)
  | 0, _, _ => throw (.killed 9)
  | fuel + 1, divides, part => do
    match part with
    | .text t quoted =>
      return (if quoted then [.mark] else []) ++ t.map (.glyph · quoted (divides && !quoted))
    | .arithmetic e quoted => do
      let e := Item.text [' '] (← wordItems fuel false e)
      let s ← get
      match Arithmetic.evaluate (fun name => (s.value? name).getD []) e with
      | .error p => fail (p.describe e)
      | .ok (n, assigned) =>
        assigned.forM fun (name, n) => assign name (Text.ofInt n)
        return Item.ofValue quoted (Text.ofInt n)
    | .output script quoted => do
      let (b, ending) ← capture (finishing fuel true (eval fuel false script))
      match ending with
      | .exited n => modify ({ · with outputStatus := n })
      | .killed signal => throw (.killed signal)
      | _ => modify ({ · with outputStatus := failure })
      let t := Text.ofBytes (b.filter (· ≠ 0))
      return Item.ofValue quoted ((t.reverse.dropWhile (· = '\n')).reverse)
    | .parameter name use quoted => parameter fuel name quoted use

def parameter : (fuel : Nat) → (name : Text) → (quoted : Bool) → Use → Action (List Item)
  | 0, _, _, _ => throw (.killed 9)
  | fuel + 1, name, quoted, use => do
    let s ← get
    let value := s.value? name
    let ofValue : Action (List Item) := do
      let s ← get
      if name = "@" ∨ name = "*" ∧ !quoted then return Item.ofArguments quoted s.arguments
      else if name = "*" then return Item.ofValue true (Text.joinWith s.separator s.arguments)
      else return Item.ofValue quoted ((s.value? name).getD [])
    let refuse : Action Unit := do
      if s.options.refuseUnset ∧ value.isNone ∧ name ≠ "@" ∧ name ≠ "*" then
        fail (name ++ ": parameter not set")
    match use with
    | .value =>
      refuse
      ofValue
    | .size =>
      refuse
      return Item.ofValue quoted (Text.ofNat (value.getD []).byteSize)
    | .unknown => fail "Bad substitution"
    | .otherwise sign orEmpty w =>
      let isThere := value.isSome && !(orEmpty && value = some [])
      let w := if quoted then w else Word.atHome (s.value? "HOME") w
      if sign = '+' then
        if isThere then wordItems fuel (!quoted) w else return []
      else if isThere then ofValue
      else if sign = '-' then wordItems fuel (!quoted) w
      else if sign = '=' then
        if !Word.isName name then fail (name ++ ": bad variable name")
        assign name (Item.text s.separator (← wordItems fuel (!quoted) w))
        ofValue
      else
        let message := Item.text s.separator (← wordItems fuel false w)
        let standard : Text :=
          if orEmpty then "parameter not set or null" else "parameter not set"
        fail (name ++ ": " ++ if w.isEmpty then standard else message)
    | .cut last longest pattern =>
      refuse
      let p := Item.pattern s.separator (← wordItems fuel false pattern)
      return Item.ofValue quoted (Glob.drop p (value.getD []) longest (!last))

def wordItems : (fuel : Nat) → (divides : Bool) → Word → Action (List Item)
  | 0, _, _ => throw (.killed 9)
  | fuel + 1, divides, w => return (← w.mapM (items fuel divides)).flatten

/-- The text of a word that makes one field. -/
def wordText : (fuel : Nat) → Word → Action Text
  | 0, _ => throw (.killed 9)
  | fuel + 1, w => do
    let s ← get
    return Item.text s.separator (← wordItems fuel false (Word.atHome (s.value? "HOME") w))

/-- The text of a word that is assigned. -/
def assignedText : (fuel : Nat) → Word → Action Text
  | 0, _ => throw (.killed 9)
  | fuel + 1, w => do
    let s ← get
    return Item.text s.separator (← wordItems fuel false (Word.atHomes (s.value? "HOME") w))

def wordFields : (fuel : Nat) → Word → Action (List Text)
  | 0, _ => throw (.killed 9)
  | fuel + 1, w => do
    let l ← wordItems fuel false (Word.atHome ((← get).value? "HOME") w)
    let s ← get
    let fs := Item.fields s.dividers none false l
    return if s.options.plainNames then fs.map Glob.text else fs.flatMap (Glob.paths s.disk)

/-- The fields of the words of a command. A command that assigns does not divide what it assigns. -/
def commandFields : (fuel : Nat) → List Word → Action (List Text)
  | 0, _ => throw (.killed 9)
  | fuel + 1, ws => do
    let assigns := (ws.head?.bind Word.bare?).any (assigningBuiltins.contains ·)
    let fs ← ws.mapM fun w => do
      match if assigns then w.assignment? else none with
      | some (name, value) => return [name ++ ['='] ++ (← assignedText fuel value)]
      | none => wordFields fuel w
    return fs.flatten

/-- Opens what streams are redirected to, as long as all goes well. -/
def openAll : (fuel : Nat) → List Redirection → Action Bool
  | 0, _ => throw (.killed 9)
  | _, [] => return true
  | fuel + 1, r :: rs => do
    let isOpen ←
      match r with
      | .write stream opening name => do openFile stream (← wordText fuel name) opening
      | .read stream name => do openSource stream (← wordText fuel name)
      | .duplicate stream source => do openStream stream (← wordText fuel source)
      | .document stream content => do
        connectSource stream (Text.toBytes (← wordText fuel content))
        pure true
    if isOpen then openAll fuel rs else return false

/-- Runs an action with streams redirected, for good if they are `kept`. -/
def redirecting : (fuel : Nat) → (special kept : Bool) → List Redirection → Action Unit → Action Unit
  | 0, _, _, _, _ => throw (.killed 9)
  | fuel + 1, special, kept, rs, a => do
    let before := (← get).streams
    try
      if ← openAll fuel rs then a
      else if special then throw .failed
      else setStatus failure
    finally if !kept then modify ({ · with streams := before })

/-- Runs a script, or a part of one, by itself to its very end. -/
def finishing : (fuel : Nat) → (isPart : Bool) → Action Unit → Action Unit
  | 0, _, _ => throw (.killed 9)
  | fuel + 1, isPart, a => do
    modify fun s =>
      { s with traps := [], whole := if isPart then some (s.whole.getD s.traps) else none }
    let status : Nat ←
      try
        a
        pure (← get).status
      catch
        | .exited n => pure n
        | .failed => pure failure
        | .killed signal => throw (.killed signal)
        | _ => pure (← get).status
    match (← get).traps.lookup ("EXIT" : Text) with
    | none => exit status
    | some action =>
      modify fun s => { s with traps := s.traps.filter (·.1 ≠ "EXIT"), status }
      runText fuel false action
      exit status

/-- Does what is to be done for the signals that came. -/
def answerSignals : (fuel : Nat) → Action Unit
  | 0 => throw (.killed 9)
  | fuel + 1 => do
    let s ← get
    match if s.whole.isSome then [] else s.signals with
    | [] => return
    | name :: others =>
      set { s with signals := others }
      runText fuel false ((s.traps.lookup name).getD [])
      setStatus s.status
      answerSignals fuel

/-- Calls a program. -/
def runCall : (fuel : Nat) → List (Text × Text) → Call → Action Unit
  | 0, _, _ => throw (.killed 9)
  | fuel + 1, environment, c => do
    let s ← get
    set ({
      disk := s.disk, bindings := shellVariables environment s.disk.here
      name := c.name, arguments := c.arguments
      streams := s.streams, sinks := s.sinks, sources := s.sources, files := s.files } : Session)
    if Installed.shells.contains c.program then runShell fuel c.arguments
    else if c.program = "env" then exit (← runInEnvironment fuel c environment)
    else if c.program = "printenv" then exit (← Tool.printVariables c.arguments environment)
    else
      match Tool.run? c.program with
      | some f => exit (← f ⟨c.name, c.arguments⟩)
      | none => exit 0

/-- The shell, called with arguments: a script follows `-c`, a file else. -/
def runShell : (fuel : Nat) → List Text → Action Unit
  | 0, _ => throw (.killed 9)
  | fuel + 1, arguments => do
    finishing fuel false do
      modify ({ · with arguments := [] })
      let (letters, rest) ← shellOptions arguments
      match letters.contains 'c', if letters.contains 's' then [] else rest with
      | true, [] => fail "-c requires an argument"
      | true, script :: names =>
        modify fun s => { s with name := names.head?.getD s.name, arguments := names.tail }
        runText fuel false script
      | false, [] =>
        modify ({ · with arguments := rest })
        runText fuel false (Text.ofBytes (← take 0 false))
      | false, file :: arguments =>
        match (← get).disk.read file with
        | .error .isDirectory => return
        | .error o => fail ("cannot open " ++ file ++ ": " ++ reason "No such file" o)
        | .ok b =>
          modify ({ · with name := file, arguments })
          runText fuel false (Text.ofBytes b)

/-- The program that `env` is called for. -/
def runInEnvironment : (fuel : Nat) → Call → List (Text × Text) → Action Nat
  | 0, _, _ => throw (.killed 9)
  | fuel + 1, c, environment => do
    let t : Tool := ⟨c.name, c.arguments⟩
    let arguments :=
      match c.arguments with
      | ['-', 'S'] :: a :: rest => (a.splitOn ' ').filter (· ≠ []) ++ rest
      | ('-' :: 'S' :: a) :: rest => (a.splitOn ' ').filter (· ≠ []) ++ rest
      | arguments => arguments
    let (environment, call) := environmentCall arguments environment
    match call with
    | [] =>
      Tool.printVariables [] environment
    | name :: arguments =>
      match Executable.find (← get).disk (environment.lookup ("PATH" : Text)) name arguments with
      | .ok call =>
        match ← isolated (runCall fuel environment call) with
        | .killed signal => throw (.killed signal)
        | ending =>
          join ending
          return (← get).status
      | .error o =>
        let n ← t.complain (Tool.quoted name ++ ": " ++ Tool.reason o)
          (if o = .missing ∨ o = .notDirectory then 127 else 126)
        if o = .missing ∧ name.contains ' ' then
          t.complain "use -[v]S to pass options in shebang lines" n
        else return n

/-- Runs a text line by line. -/
def runText : (fuel : Nat) → (tested : Bool) → Text → Action Unit
  | 0, _, _ => throw (.killed 9)
  | fuel + 1, tested, t => runSource fuel tested true (Source.ofText t)

/-- Runs what is left of a source; success if it has no commands at all. -/
def runSource : (fuel : Nat) → (tested first : Bool) → Source → Action Unit
  | 0, _, _, _ => throw (.killed 9)
  | fuel + 1, tested, first, source => do
    let s ← get
    match { source with aliases := s.aliases }.next? with
    | .error (line, flaw) =>
      modify ({ · with line })
      fail ("Syntax error: " ++ flaw.describe)
    | .ok none => if first then setStatus 0
    | .ok (some (script, rest)) =>
      let isEmpty := script matches .skip
      if !s.options.idle then eval fuel tested script
      runSource fuel tested (first && isEmpty) rest

/-- Runs the body as long as the condition does not end it; `last` is how the body ended. -/
def iterate : (fuel : Nat) → (tested untilTrue : Bool) → (condition body : Script) → (last : Nat) →
    Action Unit
  | 0, _, _, _, _, _ => throw (.killed 9)
  | fuel + 1, tested, untilTrue, condition, body, last => do
    let (goes, again) ←
      try
        eval fuel true condition
        pure (((← get).status == 0) != untilTrue, false)
      catch
        | .left 1 again => pure (false, again)
        | .left (n + 2) again => throw (.left (n + 1) again)
        | ending => throw ending
    if again then iterate fuel tested untilTrue condition body last
    else if goes then
      if ← turn (eval fuel tested body) then
        iterate fuel tested untilTrue condition body (← get).status
    else setStatus last

/-- Runs the body for each value. -/
def forEach : (fuel : Nat) → (tested : Bool) → (name : Text) → List Text → (body : Script) →
    Action Unit
  | 0, _, _, _, _ => throw (.killed 9)
  | _, _, _, [], _ => return
  | fuel + 1, tested, name, value :: values, body => do
    assign name value
    if ← turn (eval fuel tested body) then forEach fuel tested name values body

/-- The first of the clauses with a pattern that a text fits. -/
def findClause : (fuel : Nat) → (t : Text) → List (List Word × Script) → Action Script
  | 0, _, _ => throw (.killed 9)
  | _, _, [] => return .skip
  | fuel + 1, t, (patterns, body) :: clauses => do
    let s ← get
    let home := s.value? "HOME"
    let ps ← patterns.mapM fun w => do
      return Item.pattern s.separator (← wordItems fuel false (Word.atHome home w))
    if ps.any (Glob.fits · t) then return body else findClause fuel t clauses

/-- Runs the stages of a pipe one after the other, each with the output of the one before. -/
def runPipe : (fuel : Nat) → (tested : Bool) → List Script → Action Unit
  | 0, _, _ => throw (.killed 9)
  | _, _, [] => return
  | fuel + 1, tested, [a] => do joinPart (← isolated (finishing fuel true (eval fuel tested a)))
  | fuel + 1, tested, a :: stages => do
    let (b, ending) ← capture (finishing fuel true (eval fuel tested a))
    if let .killed signal := ending then throw (.killed signal)
    let before := (← get).streams
    connectSource 0 b
    try runPipe fuel tested stages finally modify ({ · with streams := before })

/-- Runs a function. -/
def runFunction : (fuel : Nat) → (tested : Bool) → (body : Script) → List Text → Action Unit
  | 0, _, _, _ => throw (.killed 9)
  | fuel + 1, tested, body, arguments => do
    let s ← get
    if maxDepth ≤ s.depth then
      fail ("Maximum function recursion depth (" ++ Text.ofNat maxDepth ++ ") reached")
    set { s with
      arguments, hidden := [], loops := 0, depth := s.depth + 1, optionIndex := 1, optionPlace := none }
    try untilReturned (eval fuel tested body)
    finally
      modify fun after =>
        { after.hidden.foldl Session.restore after with
          arguments := s.arguments, hidden := s.hidden, loops := s.loops, depth := s.depth
          optionIndex := s.optionIndex, optionPlace := s.optionPlace }

/-- Looks for a program and runs it by itself. -/
def runProgram : (fuel : Nat) → (name : Text) → List Text → Action Ending
  | 0, _, _ => throw (.killed 9)
  | fuel + 1, name, arguments => do
    let s ← get
    match s.findProgram name arguments with
    | .ok c =>
      let ending ← isolated (runCall fuel s.environment c)
      modify ({ · with signals := s.signals })
      return ending
    | .error o => return .exited (← notStarted name false o)

/-- Runs a command. The assignments before it are made, and for most commands taken back. -/
def runCommand : (fuel : Nat) → (tested plain : Bool) → (name : Text) → List Text → Action Unit
  | 0, _, _, _, _ => throw (.killed 9)
  | fuel + 1, tested, plain, name, arguments => do
    let s ← get
    let special := specialBuiltins.contains name && !plain
    if name = "eval" then
      asBuiltin special name do
        runText fuel tested (Text.joinWith " " arguments)
        return (← get).status
    else if name = "." then
      asBuiltin special name (readIn fuel arguments)
    else if name = "exec" then
      match arguments with
      | [] => setStatus 0
      | program :: arguments =>
        asBuiltin special name do
          let s ← get
          match s.findProgram program arguments with
          | .error o => exit (← notStarted program true o)
          | .ok _ =>
            let ending ← runProgram fuel program arguments
            if let .killed signal := ending then throw (.killed signal)
            modify ({ · with traps := [] })
            join ending
            exit (← get).status
    else if name = "command" then
      match arguments with
      | [] => setStatus 0
      | a :: rest =>
        if a = "-v" ∨ a = "-V" then
          asBuiltin false name do
            match ← describeName (a = "-v") (rest.headD []) with
            | some t => Builtin.output (Text.toBytes (t ++ ['\n']))
            | none =>
              if a = "-V" then discard <| Builtin.output (Text.toBytes (rest.headD [] ++ ": not found\n"))
              return 127
        else if a = "-p" ∨ a = "--" then runCommand fuel tested true "command" rest
        else runCommand fuel tested true a rest
    else
      match if plain ∨ special then none else s.functions.lookup name with
      | some body => runFunction fuel tested body arguments
      | none =>
        if name = "type" then
          asBuiltin false name do
            let results ← arguments.mapM fun a => do
              match ← describeName false a with
              | some t => Builtin.output (Text.toBytes (t ++ ['\n']))
              | none =>
                discard <| Builtin.output (Text.toBytes (a ++ ": not found\n"))
                return 127
            return results.foldl (fun a b => if b = 0 then a else b) 0
        else
          match builtin? name with
          | some f => asBuiltin special name (f arguments)
          | none => joinProgram (← runProgram fuel name arguments)

/-- Runs a file as a part of the script. -/
def readIn : (fuel : Nat) → List Text → Action Nat
  | 0, _ => throw (.killed 9)
  | _, [] => return 0
  | fuel + 1, file :: _ => do
    let s ← get
    let dirs := ((s.value? "PATH").getD []).splitOn ':'
    let place? :=
      if file.contains '/' then some file
      else (dirs.map (Path.join · file)).find? s.disk.isFile
    match place? with
    | none => fail (file ++ ": not found")
    | some p =>
      match s.disk.read p with
      | .error o => fail ("cannot open " ++ p ++ ": " ++ reason "No such file" o)
      | .ok b =>
        modify ({ · with builtin := some p })
        untilReturned (runText fuel false (Text.ofBytes b))
        return (← get).status

/-- A simple command. -/
def runSimple : (fuel : Nat) → (tested : Bool) → List (Text × Word) → List Word →
    List Redirection → Action Unit
  | 0, _, _, _, _ => throw (.killed 9)
  | fuel + 1, tested, assignments, ws, rs => do
    modify ({ · with outputStatus := 0 })
    let fs ← commandFields fuel ws
    let special := fs.head?.any (specialBuiltins.contains ·)
    let kept := fs = [("exec" : Text)]
    let streams := (← get).streams
    redirecting fuel special kept rs do
      let values ← assignments.mapM fun (name, w) => do
        let value ← assignedText fuel w
        if fs.isEmpty then assign name value
        return (name, value)
      if (← get).options.trace then
        let here := (← get).streams
        modify ({ · with streams })
        let mark := ((← get).value? "PS4").getD []
        discard <| write 2 (Text.toBytes (traceLine mark values fs))
        modify ({ · with streams := here })
      match fs with
      | [] => setStatus (← get).outputStatus
      | name :: arguments =>
        let s ← get
        let before := values.map fun (name, _) =>
          (s.named? name).getD { name, value := none }
        values.forM fun (name, value) => do
          assign name value
          if !special then modify (·.change name ({ · with exported := true }))
        try runCommand fuel tested false name arguments
        finally if !special then modify fun s => before.foldl Session.restore s

def eval : (fuel : Nat) → (tested : Bool) → Script → Action Unit
  | 0, _, _ => throw (.killed 9)
  | fuel + 1, tested, script => do
    match script with
    | .skip => return
    | .simple line assignments ws rs =>
      if (← get).options.idle then return
      modify ({ · with line })
      runSimple fuel tested assignments ws rs
      answerSignals fuel
      check tested
    | .seq a b =>
      eval fuel tested a
      eval fuel tested b
    | .both a b =>
      eval fuel true a
      if (← get).status = 0 then eval fuel tested b
    | .either a b =>
      eval fuel true a
      if (← get).status ≠ 0 then eval fuel tested b
    | .negate a =>
      eval fuel true a
      setStatus (if (← get).status = 0 then 1 else 0)
    | .pipe stages =>
      runPipe fuel tested stages
      answerSignals fuel
      check tested
    | .background a =>
      let ending ← isolated do
        connectSource 0 []
        finishing fuel true (eval fuel tested a)
      match ending with
      | .killed signal => throw (.killed signal)
      | .exited n => modify fun s => { s with jobs := n :: s.jobs }
      | _ => modify fun s => { s with jobs := failure :: s.jobs }
      setStatus 0
    | .loop untilTrue condition body => inLoop (iterate fuel tested untilTrue condition body 0)
    | .branch condition yes no =>
      eval fuel true condition
      if (← get).status = 0 then eval fuel tested yes
      else if no matches .skip then setStatus 0
      else eval fuel tested no
    | .each line name ws body =>
      modify ({ · with line })
      let fs ← ws.mapM (wordFields fuel)
      if fs.flatten.isEmpty then setStatus 0
      inLoop (forEach fuel tested name fs.flatten body)
    | .choose line w clauses =>
      modify ({ · with line })
      let t ← wordText fuel w
      let body ← findClause fuel t clauses
      if body matches .skip then setStatus 0 else eval fuel tested body
    | .define name body =>
      modify fun s => { s with functions := (name, body) :: s.functions.filter (·.1 ≠ name) }
      setStatus 0
    | .redirected line body rs =>
      modify ({ · with line })
      redirecting fuel false false rs (eval fuel tested body)
    | .subshell line body rs =>
      modify ({ · with line })
      joinPart (← isolated (finishing fuel true (redirecting fuel true true rs (eval fuel tested body))))
      answerSignals fuel
      check tested

end

end FloatFlattening.Shell.Action
