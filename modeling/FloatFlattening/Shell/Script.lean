import FloatFlattening.Text.Basic
/-!
Scripts of the shell, the language of the programs that are scripts: commands, and the words that
they are made of. A word is made of parts, some of which are only known when the word is used.
-/

namespace FloatFlattening.Shell

/-- How a file is opened that is written to. -/
inductive Opening
  /-- It is emptied, unless files that are there are to be kept. -/
  | replace
  /-- It is emptied in any case. -/
  | clobber
  | append
  /-- It may be read too. -/
  | update
  deriving DecidableEq, Repr

mutual

/-- Quoted parts are not divided into fields and name no files. -/
inductive Part
  | text (t : Text) (quoted : Bool)
  | parameter (name : Text) (use : Use) (quoted : Bool)
  | arithmetic (expression : List Part) (quoted : Bool)
  | output (script : Script) (quoted : Bool)

/-- What is made of the value of a parameter. -/
inductive Use
  | value
  | size
  /-- What the sign says is done with the word if there is no value, or, if `orEmpty`, an empty one. -/
  | otherwise (sign : Char) (orEmpty : Bool) (word : List Part)
  /-- The value without the text at an end of it that fits the pattern. -/
  | cut (last longest : Bool) (pattern : List Part)
  | unknown

/-- Where a stream, given by its number, comes from or goes to. -/
inductive Redirection
  | write (stream : Nat) (opening : Opening) (name : List Part)
  | read (stream : Nat) (name : List Part)
  | duplicate (stream : Nat) (source : List Part)
  | document (stream : Nat) (content : List Part)

inductive Script
  | skip
  | simple (line : Nat) (assignments : List (Text × List Part)) (words : List (List Part))
      (redirections : List Redirection)
  | seq (a b : Script)
  | both (a b : Script)
  | either (a b : Script)
  | negate (a : Script)
  | pipe (stages : List Script)
  | background (a : Script)
  | loop (untilTrue : Bool) (condition body : Script)
  | branch (condition yes no : Script)
  | each (line : Nat) (name : Text) (words : List (List Part)) (body : Script)
  /-- The first clause with a pattern that the word fits. -/
  | choose (line : Nat) (word : List Part) (clauses : List (List (List Part) × Script))
  | define (name : Text) (body : Script)
  | redirected (line : Nat) (body : Script) (redirections : List Redirection)
  | subshell (line : Nat) (body : Script) (redirections : List Redirection)

end

abbrev Word := List Part

namespace Word

def isNameStart (c : Char) : Bool := c.isAlpha || c = '_'

def isNameChar (c : Char) : Bool := c.isAlphanum || c = '_'

def isName (t : Text) : Bool := t.head?.any isNameStart && t.all isNameChar

/-- A word with a character before it. -/
def cons (c : Char) (quoted : Bool) : Word → Word
  | .text t q :: w => if q = quoted then .text (c :: t) q :: w else .text [c] quoted :: .text t q :: w
  | w => .text [c] quoted :: w

/-- The text of a word that is written without quotation marks and parameters. -/
def bare? : Word → Option Text
  | [.text t false] => some t
  | _ => none

/-- A word of the form `name=value`. -/
def assignment? : Word → Option (Text × Word)
  | .text t false :: w =>
    let name := t.takeWhile isNameChar
    match t.drop name.length with
    | '=' :: value =>
      if isName name then some (name, if value.isEmpty then w else .text value false :: w) else none
    | _ => none
  | _ => none

/-- All arguments, each for itself. -/
def arguments : Word := [.parameter ['@'] .value true]

def isArguments : Word → Bool
  | [.parameter ['@'] .value _] => true
  | _ => false

end Word

end FloatFlattening.Shell
