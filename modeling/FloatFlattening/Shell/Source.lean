import FloatFlattening.Shell.Script
import FloatFlattening.Text.Search
/-!
The text of a script as it is read: what is left of it, and the line that has been reached. A line
that ends in a backslash goes on in the next one.
-/

namespace FloatFlattening.Shell

inductive Token
  /-- The empty symbol is the end of the text. -/
  | symbol (s : Text)
  | keyword (k : Text)
  | word (w : Word)
  /-- A redirection, with the number of its stream if there is one. -/
  | redirect (stream : Option Nat) (sign : Text)

namespace Token

/-- How a reader is told of a token. -/
def describe : Token → Text
  | symbol [] => "end of file"
  | symbol ['\n'] => "newline"
  | symbol s => "\"" ++ s ++ "\""
  | keyword k => "\"" ++ k ++ "\""
  | word _ => "word"
  | redirect .. => "redirection"

def isSymbol (s : Text) : Token → Bool
  | symbol t => t = s
  | _ => false

def isKeyword (k : Text) : Token → Bool
  | keyword t => t = k
  | _ => false

def keywords : List Text := ["!", "case", "do", "done", "elif", "else", "esac", "fi", "for", "if", "in",
  "then", "until", "while", "\x7b", "\x7d"]

/-- The tokens that end a sequence of commands. -/
def closesList : Token → Bool
  | symbol s => ([[], ";;", ")"] : List Text).contains s
  | keyword k => (["do", "done", "elif", "else", "esac", "fi", "then", "\x7d"] : List Text).contains k
  | _ => false

/-- A word that stands for itself may be a keyword. -/
def asKeyword : Token → Token
  | word w =>
    match Word.bare? w with
    | some t => if keywords.contains t then keyword t else word w
    | none => word w
  | t => t

end Token

/-- Why a script cannot be read. -/
inductive Flaw
  | unexpected (found : Text) (expected : Option Text)
  | openQuote
  | openBrace
  | openArithmetic
  | openOutput
  | badLoopName
  | badFunctionName
  | badStream
  | tooLong
  deriving DecidableEq, Repr

def Flaw.describe : Flaw → Text
  | unexpected found expected =>
    found ++ " unexpected" ++
      (match expected with
      | some t => " (expecting " ++ t ++ ")"
      | none => [])
  | openQuote => "Unterminated quoted string"
  | openBrace => "Missing '\x7d'"
  | openArithmetic => "Missing '))'"
  | openOutput => "EOF in backquote substitution"
  | badLoopName => "Bad for loop variable"
  | badFunctionName => "Bad function name"
  | badStream => "Bad fd number"
  | tooLong => "too long"

structure Source where
  rest : Text
  line : Nat := 1
  /-- The lines of documents that follow the line being read. -/
  ahead : Nat := 0
  /-- A token that was read but not used. -/
  pushed : Option Token := none
  aliases : List (Text × Text) := []
  /-- The aliases whose text is being read, with the size of what follows it. -/
  expanded : List (Text × Nat) := []

abbrev Reader := EStateM Flaw Source

namespace Reader

/-- Passes over the ends of lines that go on. -/
def joinLines : Text → Nat → Text × Nat
  | '\\' :: '\n' :: t, n => joinLines t (n + 1)
  | t, n => (t, n)

def peek : Reader (Option Char) := do
  let s ← get
  let (rest, n) := joinLines s.rest 0
  set { s with rest, line := s.line + n }
  return rest.head?

/-- Takes a character as it is. -/
def take? : Reader (Option Char) := do
  let s ← get
  match s.rest with
  | [] => return none
  | c :: rest =>
    if c = '\n' then set { s with rest, line := s.line + 1 + s.ahead, ahead := 0 }
    else set { s with rest }
    return some c

def advance : Reader Unit := discard take?

/-- Takes the given character if it comes next. -/
def accept (c : Char) : Reader Bool := do
  if (← peek) = some c then
    advance
    return true
  else return false

/-- Takes the characters up to the first that fails a test. -/
def takeWhile (p : Char → Bool) : Reader Text := do
  discard peek
  let s ← get
  let t := s.rest.takeWhile p
  set { s with rest := s.rest.drop t.length, line := s.line + t.count '\n' }
  return t

def push (t : Token) : Reader Unit := modify ({ · with pushed := some t })

def unexpected (t : Token) (expected : Option Token := none) : Reader α :=
  throw (.unexpected t.describe (expected.map Token.describe))

/-- The lines of a document, and those below the line that ends it; none if no line does. -/
def documentLines (delimiter : Text) (tabs : Bool) : List Text → List Text × Option (List Text)
  | [] => ([], none)
  | l :: ls =>
    let l := if tabs then l.dropWhile (· = '\t') else l
    if l = delimiter then ([], some ls)
    else
      let (body, below) := documentLines delimiter tabs ls
      (l :: body, below)

/-- Takes out the document that begins after the line being read. -/
def document (delimiter : Text) (tabs : Bool) : Reader Text := do
  let s ← get
  let here := s.rest.takeWhile (· ≠ '\n')
  match s.rest.drop here.length with
  | [] => return []
  | _ :: below =>
    let (body, after) := documentLines delimiter tabs (below.splitOn '\n')
    let ahead := s.ahead + if after.isSome then body.length + 1 else body.length - 1
    set { s with rest := here ++ '\n' :: Text.joinWith "\n" (after.getD []), ahead }
    return if after.isSome then body.flatMap (· ++ ['\n']) else Text.joinWith "\n" body

end Reader

end FloatFlattening.Shell
