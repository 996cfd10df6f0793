import FloatFlattening.Shell.Source
/-!
Readers for the small pieces that scripts are made of: quoted text, names, signs and what lies
between them.
-/

namespace FloatFlattening.Shell

/-- What a part of a word stands in. -/
inductive Place
  | bare
  | braces (quoted : Bool)
  | quotes
  /-- An arithmetic expression, with a number of open parentheses. -/
  | arithmetic (depth : Nat)
  | document

namespace Place

def quoted : Place → Bool
  | bare | braces false => false
  | _ => true

/-- Where the text may not end, with the flaw that it is if it does. -/
def flaw? : Place → Option Flaw
  | bare | document => none
  | braces false => some .openBrace
  | braces true | quotes => some .openQuote
  | arithmetic _ => some .openArithmetic

/-- The characters that end an unquoted word. -/
def breaks : List Char := [' ', '\t', '\n', ';', '&', '|', '<', '>', '(', ')']

end Place

namespace Reader

def backquote : Char := Char.ofNat 0x60

def isSpecial (c : Char) : Bool := (['@', '*', '#', '?', '$', '!', '-'] : List Char).contains c

/-- The text up to the closing apostrophe. -/
def apostrophes : (fuel : Nat) → Reader Text
  | 0 => throw .tooLong
  | fuel + 1 => do
    match ← take? with
    | none => throw .openQuote
    | some '\'' => return []
    | some c => return c :: (← apostrophes fuel)

/-- The script up to the closing backquote. -/
def backquoted (quoted : Bool) : (fuel : Nat) → Reader Text
  | 0 => throw .tooLong
  | fuel + 1 => do
    discard peek
    match ← take? with
    | none => throw .openOutput
    | some '\\' =>
      match ← take? with
      | none => throw .openOutput
      | some c =>
        let plain := c = '\\' || c = '$' || c = backquote || (quoted && c = '"')
        return (if plain then [c] else ['\\', c]) ++ (← backquoted quoted fuel)
    | some c => if c = backquote then return [] else return c :: (← backquoted quoted fuel)

/-- A backslash and the character after it. -/
def escaped (place : Place) : Reader Word := do
  match ← take? with
  | none => return [.text ['\\'] true]
  | some c =>
    let plain :=
      match place with
      | .bare | .braces false => true
      | .braces true => (['$', '"', '\\', '\x7d', backquote] : List Char).contains c
      | .document | .arithmetic _ => (['$', '\\', backquote] : List Char).contains c
      | .quotes => (['$', '"', '\\', backquote] : List Char).contains c
    return [.text (if plain then [c] else ['\\', c]) true]

/-- The name of a parameter in braces, and whether its size is meant; nothing if there is none. -/
def parameterName : Reader (Option (Text × Bool)) := do
  discard peek
  let name (t : Text) : Text :=
    match t with
    | c :: _ =>
      if Word.isNameStart c then t.takeWhile Word.isNameChar
      else if c.isDigit then t.takeWhile Char.isDigit
      else if isSpecial c then [c]
      else []
    | [] => []
  let s ← get
  let (text, isSize) : Text × Bool :=
    match s.rest with
    | '#' :: t =>
      if t.head?.any Word.isNameChar then (name t, true)
      else if !(name t).isEmpty ∧ (t.drop 1).head? = some '\x7d' then (name t, true)
      else (['#'], false)
    | t => (name t, false)
  if text.isEmpty then return none
  set { s with rest := s.rest.drop (text.length + if isSize then 1 else 0) }
  return some (text, isSize)

def isSign (c : Char) : Bool := (['-', '=', '?', '+'] : List Char).contains c

/-- The token at the beginning if it is none with a word. -/
def symbol? : Reader (Option Token) := do
  match ← peek with
  | none => return some (.symbol [])
  | some c =>
    match c with
    | '\n' | '(' | ')' =>
      advance
      return some (.symbol [c])
    | '&' | '|' | ';' =>
      advance
      return some (.symbol (if ← accept c then [c, c] else [c]))
    | _ => return none

/-- A redirection, after the number of its stream. -/
def redirection? (stream : Option Nat) : Reader (Option Token) := do
  match ← peek with
  | some '>' =>
    advance
    if ← accept '>' then return some (.redirect stream ">>")
    else if ← accept '&' then return some (.redirect stream ">&")
    else return some (.redirect stream (if ← accept '|' then ">|" else ">"))
  | some '<' =>
    advance
    if ← accept '<' then
      return some (.redirect stream (if ← accept '-' then "<<-" else "<<"))
    else if ← accept '&' then return some (.redirect stream "<&")
    else return some (.redirect stream (if ← accept '>' then "<>" else "<"))
  | _ => return none

/-- Blanks and the ends of lines that go on, which are counted. -/
def dropBlanks : Text → Nat → Text × Nat
  | '\\' :: '\n' :: t, n => dropBlanks t (n + 1)
  | ' ' :: t, n | '\t' :: t, n => dropBlanks t n
  | t, n => (t, n)

/-- Passes over blanks and a comment. -/
def skipBlanks : Reader Unit := do
  modify fun s =>
    let (rest, n) := dropBlanks s.rest 0
    { s with rest, line := s.line + n }
  if (← peek) = some '#' then discard <| takeWhile (· ≠ '\n')

/-- The number before a redirection. -/
def streamNumber? : Reader (Option Nat) := do
  let s ← get
  match s.rest with
  | c :: d :: rest =>
    if c.isDigit ∧ (d = '<' ∨ d = '>') then
      set { s with rest := d :: rest }
      return some (c.toNat - '0'.toNat)
    else return none
  | _ => return none

/-- Reads on in the text that an alias stands for. Within that text it stands for itself. -/
def spellOut (name : Text) : Reader Bool := do
  let s ← get
  match s.aliases.lookup name with
  | none => return false
  | some t =>
    let size := s.rest.length
    if s.expanded.any fun (known, n) => known = name && n ≤ size then return false
    let expanded := (name, size) :: s.expanded.filter (·.2 ≤ size)
    set { s with rest := t ++ s.rest, expanded }
    return true

end Reader

end FloatFlattening.Shell
