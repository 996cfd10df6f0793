import FloatFlattening.Text.Blank
import FloatFlattening.Text.Decimal
import FloatFlattening.Text.Search
/-!
Whole numbers of the shell: expressions over numbers of 64 bits, with assignments to variables.
-/

namespace FloatFlattening.Shell.Arithmetic

inductive Problem
  | noOperand
  | noEnd
  | noParenthesis
  | noColon
  | division
  | badNumber (t : Text)
  deriving DecidableEq, Repr

def Problem.describe (expression : Text) : Problem → Text
  | badNumber t => "Illegal number: " ++ t
  | p =>
    let t : Text :=
      match p with
      | noOperand => "expecting primary"
      | noEnd => "expecting EOF"
      | noParenthesis => "expecting ')'"
      | noColon => "expecting ':'"
      | _ => "division by zero"
    "arithmetic expression: " ++ t ++ ": \"" ++ expression ++ "\""

/-! ## Numbers -/

def largest : Int := 2 ^ 63 - 1

/-- A number as 64 bits hold it. -/
def wrap (n : Int) : Int := Int.bmod n (2 ^ 64)

def isSpace (c : Char) : Bool := c = ' ' || (9 ≤ c.toNat && c.toNat ≤ 13)

def trimSpace (t : Text) : Text :=
  ((t.dropWhile isSpace).reverse.dropWhile isSpace).reverse

/-- The sign of a number and what follows it. -/
def signed : Text → Int × Text
  | '-' :: t => (-1, t)
  | '+' :: t => (1, t)
  | t => (1, t)

/-- A number in decimal digits, with or without a sign, between blanks. -/
def number? (t : Text) : Option Int :=
  let (sign, digits) := signed (trimSpace t)
  let n := sign * Decimal.value digits
  if digits.isEmpty || !digits.all Char.isDigit || largest < n || n < -largest - 1 then none
  else some n

def isHexDigit (c : Char) : Bool :=
  c.isDigit || ('a' ≤ c && c ≤ 'f') || ('A' ≤ c && c ≤ 'F')

def digitValue (c : Char) : Nat :=
  if c.isDigit then c.toNat - '0'.toNat else c.toLower.toNat - 'a'.toNat + 10

def isOctalDigit (c : Char) : Bool := '0' ≤ c && c ≤ '7'

/-- The number at the beginning of a text, in the base that its first digits tell, and the rest. -/
def leading (t : Text) : Int × Text :=
  let read (base : Nat) (isDigit : Char → Bool) (t : Text) : Int × Text :=
    let digits := t.takeWhile isDigit
    let n : Nat := digits.foldl (fun n c => n * base + digitValue c) 0
    (min (n : Int) largest, t.drop digits.length)
  match t with
  | '0' :: x :: c :: r =>
    if (x = 'x' ∨ x = 'X') ∧ isHexDigit c then read 16 isHexDigit (c :: r)
    else read 8 isOctalDigit t
  | '0' :: _ => read 8 isOctalDigit t
  | _ => read 10 Char.isDigit t

/-- The number that the value of a variable stands for; none is zero. -/
def ofValue? (t : Text) : Option Int :=
  let trimmed := trimSpace t
  let (sign, digits) := signed trimmed
  let (n, rest) := leading digits
  if trimmed.isEmpty then some 0
  else if !digits.head?.any Char.isDigit || !rest.isEmpty then none
  else some (sign * n)

/-! ## Tokens -/

inductive Token
  | number (n : Int)
  | name (t : Text)
  | sign (s : Text)
  | bad
  deriving DecidableEq, Repr

/-- Every sign comes after those that begin with it. -/
def signs : List Text := ["<<=", ">>=", "<<", ">>", "<=", ">=", "==", "!=", "&&", "||", "+=", "-=", "*=",
  "/=", "%=", "&=", "|=", "^=", "+", "-", "*", "/", "%", "<", ">", "=", "!", "~", "&", "|", "^", "?",
  ":", "(", ")"].map String.toList

def tokens : (fuel : Nat) → Text → List Token
  | 0, _ | _, [] => []
  | fuel + 1, c :: t =>
    if c = ' ' ∨ c = '\t' ∨ c = '\n' then tokens fuel t
    else if c.isDigit then
      let (n, rest) := leading (c :: t)
      .number n :: tokens fuel rest
    else if c.isAlpha ∨ c = '_' then
      let name := (c :: t).takeWhile fun c => c.isAlphanum || c = '_'
      .name name :: tokens fuel ((c :: t).drop name.length)
    else
      match signs.findSome? fun s => (Text.after? s (c :: t)).map (s, ·) with
      | some (s, rest) => .sign s :: tokens fuel rest
      | none => [.bad]

/-! ## Values -/

/-- Two values to one. -/
abbrev Operation := Int → Int → Except Problem Int

def comparison (p : Int → Int → Bool) : Operation := fun a b => .ok (if p a b then 1 else 0)

def division (f : Int → Int → Int) : Operation := fun a b =>
  if b = 0 then .error .division else .ok (wrap (f a b))

def bitwise (f : Nat → Nat → Nat) : Operation := fun a b =>
  let bits (n : Int) : Nat := (n % 2 ^ 64).toNat
  .ok (wrap (f (bits a) (bits b)))

/-- A shift goes by the last six bits of the second value. -/
def shift (f : Int → Nat → Int) : Operation := fun a b => .ok (wrap (f a (b % 64).toNat))

/-- The operators of each level, those that bind least first. -/
def levels : List (List (Text × Operation)) := [
  [("|", bitwise Nat.lor)], [("^", bitwise Nat.xor)], [("&", bitwise Nat.land)],
  [("==", comparison (· = ·)), ("!=", comparison (· ≠ ·))],
  [("<=", comparison (· ≤ ·)), (">=", comparison (· ≥ ·)), ("<", comparison (· < ·)),
    (">", comparison (· > ·))],
  [("<<", shift fun a n => a * 2 ^ n), (">>", shift fun a n => a / 2 ^ n)],
  [("+", fun a b => .ok (wrap (a + b))), ("-", fun a b => .ok (wrap (a - b)))],
  [("*", fun a b => .ok (wrap (a * b))), ("/", division Int.tdiv), ("%", division Int.tmod)]]

/-- The operation of a sign that ends in `=`. -/
def assigning? (s : Text) : Option Operation :=
  if s = "=" then some fun _ b => .ok b
  else if s.getLast? = some '=' then levels.findSome? (·.lookup s.dropLast)
  else none

structure State where
  tokens : List Token
  /-- What has been assigned, the latest first. -/
  assigned : List (Text × Int) := []
  deriving DecidableEq, Repr

abbrev Calculation := EStateM Problem State

namespace Calculation

def next? : Calculation (Option Token) := return (← get).tokens.head?

def advance : Calculation Unit := modify fun s => { s with tokens := s.tokens.tail }

def accept (sign : Text) : Calculation Bool := do
  if (← next?) = some (.sign sign) then
    advance
    return true
  else return false

def truth (b : Bool) : Int := if b then 1 else 0

def apply (quiet : Bool) (f : Operation) (a b : Int) : Calculation Int :=
  if quiet then return b
  else
    match f a b with
    | .ok n => return n
    | .error p => throw p

/-- The value of a variable; in a `quiet` part, which is not evaluated, any will do. -/
def variableValue (value : Text → Text) (quiet : Bool) (name : Text) : Calculation Int := do
  if quiet then return 0
  match (← get).assigned.lookup name with
  | some n => return n
  | none =>
    match ofValue? (value name) with
    | some n => return n
    | none => throw (.badNumber (value name))

variable (value : Text → Text)

mutual

def assignment : (fuel : Nat) → (quiet : Bool) → Calculation Int
  | 0, _ => throw .noOperand
  | fuel + 1, quiet => do
    match (← get).tokens with
    | .name name :: .sign s :: rest =>
      match assigning? s with
      | none => conditional fuel quiet
      | some f =>
        modify ({ · with tokens := rest })
        let b ← assignment fuel quiet
        if quiet then return b
        let a ← if s = "=" then pure 0 else variableValue value false name
        let n ← apply false f a b
        modify fun st => { st with assigned := (name, n) :: st.assigned }
        return n
    | _ => conditional fuel quiet

def conditional : (fuel : Nat) → (quiet : Bool) → Calculation Int
  | 0, _ => throw .noOperand
  | fuel + 1, quiet => do
    let a ← disjunction fuel quiet
    if ← accept "?" then
      let b ← assignment fuel (quiet || a = 0)
      if !(← accept ":") then throw .noColon
      let c ← conditional fuel (quiet || a ≠ 0)
      return if a ≠ 0 then b else c
    else return a

def disjunction : (fuel : Nat) → (quiet : Bool) → Calculation Int
  | 0, _ => throw .noOperand
  | fuel + 1, quiet => do
    let a ← conjunction fuel quiet
    if ← accept "||" then
      let b ← disjunction fuel (quiet || a ≠ 0)
      return truth (a ≠ 0 || b ≠ 0)
    else return a

def conjunction : (fuel : Nat) → (quiet : Bool) → Calculation Int
  | 0, _ => throw .noOperand
  | fuel + 1, quiet => do
    let a ← level fuel quiet levels
    if ← accept "&&" then
      let b ← conjunction fuel (quiet || a = 0)
      return truth (a ≠ 0 && b ≠ 0)
    else return a

/-- An expression whose operators are those of the given levels. -/
def level : (fuel : Nat) → (quiet : Bool) → List (List (Text × Operation)) → Calculation Int
  | 0, _, _ => throw .noOperand
  | fuel + 1, quiet, [] => operand fuel quiet
  | fuel + 1, quiet, operators :: above => do
    operations fuel quiet operators above (← level fuel quiet above)

/-- What follows a value on a level. -/
def operations : (fuel : Nat) → (quiet : Bool) → List (Text × Operation) →
    List (List (Text × Operation)) → Int → Calculation Int
  | 0, _, _, _, _ => throw .noOperand
  | fuel + 1, quiet, operators, above, a => do
    match ← next? with
    | some (.sign s) =>
      match operators.lookup s with
      | none => return a
      | some f =>
        advance
        let b ← level fuel quiet above
        operations fuel quiet operators above (← apply quiet f a b)
    | _ => return a

def operand : (fuel : Nat) → (quiet : Bool) → Calculation Int
  | 0, _ => throw .noOperand
  | fuel + 1, quiet => do
    let t ← next?
    advance
    match t with
    | some (.number n) => return n
    | some (.name name) => variableValue value quiet name
    | some (.sign s) =>
      if s = "(" then
        let a ← assignment fuel quiet
        if ← accept ")" then return a else throw .noParenthesis
      else if s = "+" then operand fuel quiet
      else if s = "-" then return wrap (-(← operand fuel quiet))
      else if s = "!" then return truth ((← operand fuel quiet) = 0)
      else if s = "~" then return -(← operand fuel quiet) - 1
      else throw .noOperand
    | _ => throw .noOperand

end

end Calculation

/-- The value of an expression that takes up the whole text, and what it assigns, in order. -/
def evaluate (value : Text → Text) (t : Text) : Except Problem (Int × List (Text × Int)) :=
  let ts := tokens t.length t
  match (Calculation.assignment value (16 * ts.length + 16) false).run { tokens := ts } with
  | .ok n s => if s.tokens.isEmpty then .ok (n, s.assigned.reverse) else .error .noEnd
  | .error p _ => .error p

end FloatFlattening.Shell.Arithmetic
