import FloatFlattening.Shell.Builtin
import FloatFlattening.Shell.Tool.Basic
/-!
Tools that print their arguments, or what follows from them.
-/

namespace FloatFlattening.Shell.Tool

/-- The options of `echo` count only as long as they are known. -/
def echoed : (newline escapes : Bool) → List Text → Bytes
  | newline, escapes, a :: rest =>
    match a with
    | '-' :: c :: cs =>
      if (c :: cs).all fun c => c = 'n' || c = 'e' || c = 'E' then
        echoed (newline && !(c :: cs).contains 'n')
          ((((c :: cs).filter (· ≠ 'n')).getLast?.map (· == 'e')).getD escapes) rest
      else echoedWords newline escapes (a :: rest)
    | _ => echoedWords newline escapes (a :: rest)
  | newline, escapes, [] => echoedWords newline escapes []
where
  echoedWords (newline escapes : Bool) (ws : List Text) : Bytes :=
    let t := Text.joinWith " " ws
    let (b, ended) := if escapes then Printf.unescape true t.length t else (Text.toBytes t, false)
    if newline && !ended then b ++ [10] else b

def printFormat (t : Tool) : Action Nat := do
  match t.arguments.drop (if t.arguments.head? = some "--" then 1 else 0) with
  | [] => t.hint "missing operand"
  | format :: arguments =>
    let p := printf true format arguments
    print p.bytes
    let problem (m : Text) : Text :=
      let a := m.takeWhile (· ≠ ':')
      if Text.endsWith m "expected numeric value" then quoted a ++ ": expected a numeric value"
      else if Text.endsWith m "not completely converted" then
        quoted a ++ ": value not completely converted"
      else quoted a ++ m.drop a.length
    p.problems.forM fun m => discard <| t.complain (problem m)
    match p.flaw, p.rest with
    | some flaw, _ => t.complain (flaw.takeWhile (· ≠ ':') ++ ": invalid conversion specification")
    | none, a :: _ =>
      t.complain ("warning: ignoring excess arguments, starting with " ++ quoted a)
        (Builtin.status p.problems.isEmpty)
    | none, [] => return Builtin.status p.problems.isEmpty

def test (t : Tool) (arguments : List Text) : Action Nat := do
  match Condition.holds (← get).disk (arguments.length + 1) arguments with
  | .ok b => return Builtin.status b
  | .error (.badNumber a) => t.complain ("invalid integer " ++ quoted a) 2
  | .error problem =>
    match arguments with
    | [_, b] => t.complain ("missing argument after " ++ quoted b) 2
    | [_, b, _] => t.complain (quoted b ++ ": binary operator expected") 2
    | _ => t.complain problem.describe 2

def bracket (t : Tool) : Action Nat :=
  if t.arguments.getLast? = some "]" then t.test t.arguments.dropLast
  else t.complain "missing ']'" 2

/-- Whole numbers in order. -/
def sequenceOf (t : Tool) : Action Nat := do
  let isNumber (a : Text) : Bool := (Arithmetic.number? a).isSome
  let options := t.arguments.takeWhile fun a => !isNumber a
  let numbers := t.arguments.drop options.length
  match Given.read ['w'] ['s'] true (options ++ ("--" : Text) :: numbers) with
  | .error message => t.hint message
  | .ok g =>
    let operands := g.operands.filter fun (a : Text) => a ≠ "--"
    match operands.find? (!isNumber ·) with
    | some a => t.hint ("invalid floating point argument: " ++ quoted a)
    | none =>
      let all (first step last : Int) : List Text :=
        let count := if step = 0 then 0 else ((last - first) / step + 1).toNat
        (List.range (min count 100000)).map fun (k : Nat) => Text.ofInt (first + k * step)
      let present (ts : List Text) : Action Nat := do
        let width := (ts.map List.length).foldl max 0
        let fill (n : Text) : Text := List.replicate (width - n.length) '0' ++ n
        let ts := if g.has 'w' then ts.map fill else ts
        if !ts.isEmpty then printText (Text.joinWith ((g.value? 's').getD ['\n']) ts ++ ['\n'])
        return 0
      match operands.filterMap Arithmetic.number? with
      | [] => t.hint "missing operand"
      | [last] => present (all 1 1 last)
      | [first, last] => present (all first 1 last)
      | first :: step :: last :: _ => present (all first step last)

/-! ## Expressions -/

/-- The value of an expression whose words are taken from the left, by how closely they bind. -/
abbrev Calculation := StateT (List Text) (Except Text)

namespace Calculation

def refuse (message : Text) : Calculation α := throw message

def number (a : Text) : Calculation Int :=
  match Arithmetic.number? a with
  | some n => return n
  | none => refuse "non-integer argument"

def isNull (a : Text) : Bool := a.isEmpty || Arithmetic.number? a = some 0

/-- The operators, by how closely they bind. -/
def operators : List (List Text) := [["|"], ["&"], ["<", "<=", "=", "==", "!=", ">=", ">"], ["+", "-"],
  ["*", "/", "%"]]

def apply (operator a b : Text) : Calculation Text := do
  if operator = "|" then return if !isNull a then a else if !isNull b then b else ['0']
  if operator = "&" then return if isNull a || isNull b then ['0'] else a
  if (["+", "-", "*", "/", "%"] : List Text).contains operator then
    let n ← number a
    let m ← number b
    if m = 0 ∧ (operator = "/" ∨ operator = "%") then refuse "division by zero"
    return Text.ofInt <|
      if operator = "+" then n + m else if operator = "-" then n - m
      else if operator = "*" then n * m else if operator = "/" then n.tdiv m else n.tmod m
  let order : Ordering :=
    match Arithmetic.number? a, Arithmetic.number? b with
    | some n, some m => compare n m
    | _, _ => if a < b then .lt else if a = b then .eq else .gt
  let holds : Bool :=
    if operator = "<" then order.isLT else if operator = "<=" then order.isLE
    else if operator = ">" then order.isGT else if operator = ">=" then order.isGE
    else if operator = "!=" then order.isNe else order.isEq
  return if holds then ['1'] else ['0']

mutual

/-- The operands that the operators of a level join. -/
def level : (fuel : Nat) → List (List Text) → (last : Text) → Calculation Text
  | 0, _, _ => refuse "syntax error"
  | fuel + 1, [], last => operand fuel last
  | fuel + 1, known :: closer, last => do rest fuel known closer (← level fuel closer last)

def rest : (fuel : Nat) → (known : List Text) → List (List Text) → (a : Text) → Calculation Text
  | 0, _, _, _ => refuse "syntax error"
  | fuel + 1, known, closer, a => do
    match ← get with
    | operator :: more =>
      if known.contains operator then
        set more
        rest fuel known closer (← apply operator a (← level fuel closer operator))
      else return a
    | [] => return a

def operand : (fuel : Nat) → (last : Text) → Calculation Text
  | 0, _ => refuse "syntax error"
  | fuel + 1, last => do
    match ← get with
    | [] => refuse ("syntax error: missing argument after " ++ quoted last)
    | a :: more =>
      set more
      if a = "(" then
        let value ← level fuel operators a
        match ← get with
        | b :: more =>
          if b ≠ ")" then refuse ("syntax error: expecting ')' instead of " ++ quoted b)
          set more
          return value
        | [] => refuse ("syntax error: expecting ')' after " ++ quoted value)
      else if a = "length" ∧ !more.isEmpty then
        return Text.ofNat (← operand fuel a).length
      else if a = "substr" ∧ !more.isEmpty then
        let t ← operand fuel a
        let first ← number (← operand fuel a)
        let size ← number (← operand fuel a)
        return if first < 1 then [] else (t.drop (first.toNat - 1)).take size.toNat
      else return a

end

end Calculation

def calculate (t : Tool) : Action Nat := do
  if t.arguments.isEmpty then return ← t.hint "missing operand" 2
  let ws := t.arguments.drop (if t.arguments.head? = some "--" then 1 else 0)
  match (Calculation.level (8 * ws.length + 16) Calculation.operators []).run ws with
  | .error message => t.complain message 2
  | .ok (_, a :: _) => t.complain ("syntax error: unexpected argument " ++ quoted a) 2
  | .ok (value, []) =>
    printText (value ++ ['\n'])
    return Builtin.status (!Calculation.isNull value)

/-! ## Names -/

/-- The variables that a program is given: all of them, or the values of those that are named. -/
def printVariables (names : List Text) (environment : List (Text × Text)) : Action Nat := do
  let line (v : Text × Text) : Text := v.1 ++ ['='] ++ v.2 ++ ['\n']
  let values := names.map fun name => environment.lookup name
  if names.isEmpty then printText (environment.flatMap line)
  else printText ((values.filterMap id).flatMap (· ++ ['\n']))
  return Builtin.status (values.all Option.isSome)

def baseName (t : Tool) : Action Nat := do
  match Given.read ['a', 'z'] ['s'] true t.arguments with
  | .error message => t.hint message
  | .ok g =>
    let name (ending p : Text) : Text :=
      let name := (Path.fileName? p).getD (Path.last (Path.trimEnd p))
      let name := if name.isEmpty ∧ Path.isAbsolute p then ['/'] else name
      if Text.endsWith name ending ∧ name ≠ ending then name.take (name.length - ending.length)
      else name
    let present (ending : Text) (ps : List Text) : Action Nat := do
      printText (ps.flatMap fun p => name ending p ++ ['\n'])
      return 0
    match g.operands with
    | [] => t.hint "missing operand"
    | p :: rest =>
      if g.has 'a' || g.has 's' then present ((g.value? 's').getD []) (p :: rest)
      else
        match rest with
        | _ :: extra :: _ => t.hint ("extra operand " ++ quoted extra)
        | rest => present (rest.headD []) [p]

def directoryName (t : Tool) : Action Nat := do
  if t.arguments.isEmpty then return ← t.hint "missing operand"
  each t.arguments fun p => do
    let parent := (Path.parent? p).getD (if Path.isAbsolute p then ['/'] else [])
    printText ((if parent.isEmpty then ['.'] else parent) ++ ['\n'])
    return 0

def sleep (t : Tool) : Action Nat := do
  match t.arguments with
  | [] => t.hint "missing operand"
  | arguments =>
    let isTime (a : Text) : Bool :=
      (Decimal.ofText? (if a.getLast?.any (['s', 'm', 'h', 'd'].contains ·) then a.dropLast else a)).isSome
    match arguments.find? (!isTime ·) with
    | some a => t.hint ("invalid time interval " ++ quoted a)
    | none => return 0

end FloatFlattening.Shell.Tool
