import FloatFlattening.Shell.Piece
/-!
Reading scripts. A script is read by one line of commands at a time, so that the lines before a flaw
still run.
-/

namespace FloatFlattening.Shell

namespace Reader

def joined : Option Script → Script → Script
  | none, b => b
  | some a, b => .seq a b

def redirected (line : Nat) (s : Script) : List Redirection → Script
  | [] => s
  | rs =>
    match s with
    | .subshell line body _ => .subshell line body rs
    | s => .redirected line s rs

/-- Reads another text in between. -/
def nested (line : Nat) (t : Text) (r : Reader α) : Reader α := do
  let s ← get
  set { rest := t, line : Source }
  let a ← r
  set s
  return a

/-- Commands whose names functions cannot have. -/
def reserved : List Text := ["break", "continue", "eval", "exec", "exit", "export", "readonly", "return",
  "set", "shift", "times", "trap", "unset"]

mutual

/-- The parts of a word up to the end of the place they are in. -/
def parts : (fuel : Nat) → Place → Reader Word
  | 0, _ => throw .tooLong
  | fuel + 1, place => do
    match ← peek with
    | none =>
      match place.flaw? with
      | some flaw => throw flaw
      | none => return []
    | some c =>
      match place with
      | .bare => if Place.breaks.contains c then return [] else part fuel place c
      | .braces _ =>
        if c = '\x7d' then
          advance
          return []
        else part fuel place c
      | .quotes =>
        if c = '"' then
          advance
          return []
        else part fuel place c
      | .arithmetic depth =>
        if c = '(' then
          advance
          return Word.cons c true (← parts fuel (.arithmetic (depth + 1)))
        else if c = ')' then
          advance
          match depth with
          | depth + 1 => return Word.cons c true (← parts fuel (.arithmetic depth))
          | 0 =>
            if ← accept ')' then return []
            else return Word.cons c true (← parts fuel place)
        else part fuel place c
      | .document => part fuel place c

/-- The parts from a character on that does not end them. -/
def part : (fuel : Nat) → Place → Char → Reader Word
  | 0, _, _ => throw .tooLong
  | fuel + 1, place, c => do
    advance
    if c = '\\' then
      let w ← escaped place
      return w ++ (← parts fuel place)
    else if c = '$' then
      let w ← dollar fuel place.quoted
      return w ++ (← parts fuel place)
    else if c = backquote then
      let t ← backquoted place.quoted fuel
      let script ← nested 1 t (sequence fuel false true none)
      return .output (script.getD .skip) place.quoted :: (← parts fuel place)
    else if c = '\'' ∧ !place.quoted then
      let t ← apostrophes fuel
      return .text t true :: (← parts fuel place)
    else if c = '"' then
      match place with
      | .document => return Word.cons c true (← parts fuel place)
      | .arithmetic _ => parts fuel place
      | _ =>
        let w ← parts fuel .quotes
        let w := if w.isArguments then w else .text [] true :: w
        return w ++ (← parts fuel place)
    else return Word.cons c place.quoted (← parts fuel place)

/-- What a dollar sign begins. -/
def dollar : (fuel : Nat) → (quoted : Bool) → Reader Word
  | 0, _ => throw .tooLong
  | fuel + 1, quoted => do
    match ← peek with
    | none => return [.text "$" quoted]
    | some c =>
      if c = '(' then
        advance
        if ← accept '(' then return [.arithmetic (← parts fuel (.arithmetic 0)) quoted]
        else
          let script ← sequence fuel false true none
          expect (.symbol ")") fuel false
          return [.output (script.getD .skip) quoted]
      else if c = '\x7b' then
        advance
        return [← braced fuel quoted]
      else if Word.isNameStart c then
        return [.parameter (← takeWhile Word.isNameChar) .value quoted]
      else if isSpecial c || c.isDigit then
        advance
        return [.parameter [c] .value quoted]
      else return [.text "$" quoted]

/-- A parameter in braces, after the first of them. -/
def braced : (fuel : Nat) → (quoted : Bool) → Reader Part
  | 0, _ => throw .tooLong
  | fuel + 1, quoted => do
    match ← parameterName with
    | none =>
      if (← peek) ≠ some '\x7d' then modify fun s => { s with rest := s.rest.tail }
      discard <| parts fuel (.braces quoted)
      return .parameter [] .unknown quoted
    | some (name, isSize) =>
      let orEmpty ← if isSize then pure false else accept ':'
      let c ← peek
      if isSize then
        let isClosed := c = some '\x7d'
        discard <| parts fuel (.braces quoted)
        return .parameter name (if isClosed then .size else .unknown) quoted
      else if c = some '\x7d' then
        advance
        return .parameter name .value quoted
      else if c.any isSign then
        advance
        let w ← parts fuel (.braces quoted)
        return .parameter name (.otherwise (c.getD '-') orEmpty w) quoted
      else if !orEmpty ∧ (c = some '%' ∨ c = some '#') then
        advance
        let longest ← accept (c.getD '%')
        let w ← parts fuel (.braces false)
        return .parameter name (.cut (c = some '%') longest w) quoted
      else
        modify fun s => { s with rest := s.rest.tail }
        discard <| parts fuel (.braces quoted)
        return .parameter name .unknown quoted

/-- The next token. Keywords, and passing over the ends of lines, depend on where it stands. -/
def token : (fuel : Nat) → (keywords lines : Bool) → Reader Token
  | 0, _, _ => throw .tooLong
  | fuel + 1, keywords, lines => do
    let s ← get
    let t ←
      match s.pushed with
      | some t =>
        set { s with pushed := none }
        pure t
      | none => fresh fuel
    if lines ∧ t.isSymbol "\n" then token fuel keywords lines
    else return if keywords then t.asKeyword else t

def fresh : (fuel : Nat) → Reader Token
  | 0 => throw .tooLong
  | fuel + 1 => do
    skipBlanks
    if let some t ← symbol? then return t
    let stream ← streamNumber?
    if let some t ← redirection? stream then return t
    return .word (← parts fuel .bare)

def expect (t : Token) : (fuel : Nat) → (keywords : Bool) → Reader Unit
  | 0, _ => throw .tooLong
  | fuel + 1, keywords => do
    let found ← token fuel keywords false
    if found.describe ≠ t.describe then unexpected found t

/-- A sequence of commands. On the top level it ends with its line, elsewhere before a token that
closes it; it may be empty there only if `optional`. -/
def sequence : (fuel : Nat) → (top optional : Bool) → Option Script → Reader (Option Script)
  | 0, _, _, _ => throw .tooLong
  | fuel + 1, top, optional, before => do
    let t ← token fuel true (!top)
    if t.isSymbol "\n" then return some (before.getD .skip)
    if t.isSymbol [] then
      push t
      return before
    push t
    if optional ∧ t.closesList then return before
    let a ← chain fuel
    let t ← token fuel false false
    let whole := joined before (if t.isSymbol "&" then .background a else a)
    if t.isSymbol "&" ∨ t.isSymbol ";" then sequence fuel top (!top) (some whole)
    else
      if t.isSymbol "\n" then
        push t
        sequence fuel top (!top) (some whole)
      else if t.isSymbol [] ∨ !top then
        push t
        return some whole
      else unexpected t

/-- Commands joined by `&&` and `||`. -/
def chain : (fuel : Nat) → Reader Script
  | 0 => throw .tooLong
  | fuel + 1 => do chained fuel (← pipeline fuel true false)

def chained : (fuel : Nat) → Script → Reader Script
  | 0, _ => throw .tooLong
  | fuel + 1, a => do
    let t ← token fuel false false
    if t.isSymbol "&&" then chained fuel (.both a (← pipeline fuel true true))
    else if t.isSymbol "||" then chained fuel (.either a (← pipeline fuel true true))
    else
      push t
      return a

def pipeline : (fuel : Nat) → (keywords lines : Bool) → Reader Script
  | 0, _, _ => throw .tooLong
  | fuel + 1, keywords, lines => do
    let t ← token fuel keywords lines
    if t.isKeyword "!" then
      let a ← command fuel true false
      return .negate (← piped fuel a [])
    else
      push t
      let a ← command fuel false false
      piped fuel a []

/-- The rest of a pipeline, the stages before it in reverse order. -/
def piped : (fuel : Nat) → Script → List Script → Reader Script
  | 0, _, _ => throw .tooLong
  | fuel + 1, a, before => do
    let t ← token fuel false false
    if t.isSymbol "|" then piped fuel (← command fuel true true) (a :: before)
    else
      push t
      return if before.isEmpty then a else .pipe (a :: before).reverse

def command : (fuel : Nat) → (keywords lines : Bool) → Reader Script
  | 0, _, _ => throw .tooLong
  | fuel + 1, keywords, lines => do
    let line := (← get).line
    let t ← token fuel keywords lines
    if let .word w := t then
      if ← spellOut ((Word.bare? w).getD []) then return ← command fuel true lines
    match t with
    | .word _ | .redirect .. =>
      push t
      simple fuel
    | .symbol s =>
      if s ≠ "(" then unexpected t
      let body ← sequence fuel false false none
      expect (.symbol ")") fuel false
      return redirected line (.subshell line (body.getD .skip) []) (← redirections fuel true)
    | .keyword k =>
      let s ←
        if k = "\x7b" then
          let body ← sequence fuel false false none
          expect (.keyword "\x7d") fuel false
          pure (body.getD .skip)
        else if k = "if" then conditional fuel
        else if k = "while" ∨ k = "until" then
          let condition ← sequence fuel false false none
          expect (.keyword "do") fuel false
          let body ← sequence fuel false false none
          expect (.keyword "done") fuel false
          pure (.loop (k = "until") (condition.getD .skip) (body.getD .skip))
        else if k = "for" then forLoop fuel line
        else if k = "case" then choice fuel line
        else unexpected t
      return redirected line s (← redirections fuel true)

/-- What follows `if` or `elif`, up to `fi`. -/
def conditional : (fuel : Nat) → Reader Script
  | 0 => throw .tooLong
  | fuel + 1 => do
    let condition := (← sequence fuel false false none).getD .skip
    expect (.keyword "then") fuel false
    let yes := (← sequence fuel false false none).getD .skip
    let t ← token fuel false false
    if t.isKeyword "elif" then return .branch condition yes (← conditional fuel)
    else if t.isKeyword "else" then
      let no := (← sequence fuel false false none).getD .skip
      expect (.keyword "fi") fuel false
      return .branch condition yes no
    else
      push t
      expect (.keyword "fi") fuel false
      return .branch condition yes .skip

def forLoop : (fuel : Nat) → (line : Nat) → Reader Script
  | 0, _ => throw .tooLong
  | fuel + 1, line => do
    let name ←
      match ← token fuel false false with
      | .word w => pure ((Word.bare? w).getD [])
      | _ => throw .badLoopName
    if !Word.isName name then throw .badLoopName
    let t ← token fuel true true
    let ws ←
      if t.isKeyword "in" then
        let ws ← wordList fuel
        let t ← token fuel false false
        if !(t.isSymbol "\n" ∨ t.isSymbol ";") then unexpected t
        pure ws
      else
        if !t.isSymbol ";" then push t
        pure [Word.arguments]
    let t ← token fuel true true
    if !t.isKeyword "do" then unexpected t (some (.keyword "do"))
    let body ← sequence fuel false false none
    expect (.keyword "done") fuel false
    return .each line name ws (body.getD .skip)

def wordList : (fuel : Nat) → Reader (List Word)
  | 0 => throw .tooLong
  | fuel + 1 => do
    match ← token fuel false false with
    | .word w => return w :: (← wordList fuel)
    | t =>
      push t
      return []

def choice : (fuel : Nat) → (line : Nat) → Reader Script
  | 0, _ => throw .tooLong
  | fuel + 1, line => do
    match ← token fuel false false with
    | .word w =>
      let t ← token fuel true true
      if !t.isKeyword "in" then unexpected t (some (.keyword "in"))
      return .choose line w (← clauses fuel)
    | t => unexpected t (some (.word []))

/-- The clauses of a choice, up to `esac`. -/
def clauses : (fuel : Nat) → Reader (List (List Word × Script))
  | 0 => throw .tooLong
  | fuel + 1 => do
    let t ← token fuel true true
    if t.isKeyword "esac" then return []
    let t ← if t.isSymbol "(" then token fuel false false else pure t
    let ps ← patterns fuel t
    let body ← sequence fuel false true none
    let clause := (ps, body.getD .skip)
    let t ← token fuel true true
    if t.isKeyword "esac" then return [clause]
    else if t.isSymbol ";;" then return clause :: (← clauses fuel)
    else unexpected t (some (.symbol ";;"))

/-- The patterns from the given token on, up to the closing parenthesis. -/
def patterns : (fuel : Nat) → Token → Reader (List Word)
  | 0, _ => throw .tooLong
  | fuel + 1, t => do
    let w : Word :=
      match t with
      | .word w => w
      | .keyword k => [.text k false]
      | _ => []
    let next ← token fuel false false
    if next.isSymbol "|" then return w :: (← patterns fuel (← token fuel false false))
    else if next.isSymbol ")" then return [w]
    else unexpected next (some (.symbol ")"))

def redirections : (fuel : Nat) → (keywords : Bool) → Reader (List Redirection)
  | 0, _ => throw .tooLong
  | fuel + 1, keywords => do
    match ← token fuel keywords false with
    | .redirect stream sign =>
      let r ← redirection fuel stream sign
      return r :: (← redirections fuel false)
    | t =>
      push t
      return []

/-- The target of a redirection. -/
def redirection : (fuel : Nat) → Option Nat → (sign : Text) → Reader Redirection
  | 0, _, _ => throw .tooLong
  | fuel + 1, stream, sign => do
    match ← token fuel false false with
    | .word w =>
      if sign = "<<" ∨ sign = "<<-" then
        let delimiter := w.flatMap fun
          | .text t _ => t
          | _ => []
        let plain := w.all fun
          | .text _ q => !q
          | _ => true
        let s ← get
        let t ← document delimiter (sign = "<<-")
        let content ←
          if plain then nested (s.line + s.ahead + 1) t (parts fuel .document) else pure [.text t true]
        return .document (stream.getD 0) content
      else if sign = "<" then return .read (stream.getD 0) w
      else if sign = ">&" then return .duplicate (stream.getD 1) w
      else if sign = "<&" then return .duplicate (stream.getD 0) w
      else if sign = "<>" then return .write (stream.getD 0) .update w
      else if sign = ">>" then return .write (stream.getD 1) .append w
      else return .write (stream.getD 1) (if sign = ">|" then .clobber else .replace) w
    | t => unexpected t

def simple : (fuel : Nat) → Reader Script
  | 0 => throw .tooLong
  | fuel + 1 => do
    let line := (← get).line
    match ← simpleParts fuel true true with
    | .inl name => define fuel name
    | .inr (as, ws, rs) => return .simple line as ws rs

/-- The assignments, words and redirections of a command, or the name of a function. Only a `first`
word can be one, and only what comes before the words is `assigning`. -/
def simpleParts : (fuel : Nat) → (assigning first : Bool) →
    Reader (Text ⊕ List (Text × Word) × List Word × List Redirection)
  | 0, _, _ => throw .tooLong
  | fuel + 1, assigning, first => do
    match ← token fuel false false with
    | .word w =>
      match if assigning then w.assignment? else none with
      | some a =>
        let more ← simpleParts fuel true false
        return more.map id fun (as, ws, rs) => (a :: as, ws, rs)
      | none =>
        if assigning && !first then
          if ← spellOut ((Word.bare? w).getD []) then return ← simpleParts fuel true false
        let t ← token fuel false false
        if first ∧ t.isSymbol "(" then
          expect (.symbol ")") fuel false
          return .inl ((Word.bare? w).getD [])
        push t
        let more ← simpleParts fuel false false
        return more.map id fun (as, ws, rs) => (as, w :: ws, rs)
    | .redirect stream sign =>
      let r ← redirection fuel stream sign
      let more ← simpleParts fuel assigning false
      return more.map id fun (as, ws, rs) => (as, ws, r :: rs)
    | t =>
      push t
      return .inr ([], [], [])

def define : (fuel : Nat) → (name : Text) → Reader Script
  | 0, _ => throw .tooLong
  | fuel + 1, name => do
    if !Word.isName name ∨ reserved.contains name then throw .badFunctionName
    return .define name (← command fuel true true)

end

end Reader

namespace Source

def ofText (t : Text) : Source := { rest := t }

/-- The commands of the next line that has any; nothing at the end. -/
def next? (s : Source) : Except (Nat × Flaw) (Option (Script × Source)) :=
  match (Reader.sequence (16 * s.rest.length + 64) true false none).run { s with pushed := none } with
  | .ok (some script) s => .ok (some (script, s))
  | .ok none _ => .ok none
  | .error flaw s => .error (s.line, flaw)

end Source

end FloatFlattening.Shell
