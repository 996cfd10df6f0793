import FloatFlattening.Shell.Builtin.Basic
/-!
Reading lines into variables.
-/

namespace FloatFlattening.Shell

namespace Builtin

/-- A line with what is quoted in it: a backslash quotes the character after it, and joins lines. -/
def readLogical (raw : Bool) : (fuel : Nat) → Action (List (Char × Bool) × Bool)
  | 0 => return ([], false)
  | fuel + 1 => do
    let b ← Action.take 0 true
    let isWhole := b.getLast? = some 10
    let t := Text.ofBytes (if isWhole then b.dropLast else b)
    let rec marks : Text → List (Char × Bool) × Bool
      | [] => ([], false)
      | ['\\'] => ([], true)
      | '\\' :: c :: t => let (l, open?) := marks t; ((c, true) :: l, open?)
      | c :: t => let (l, open?) := marks t; ((c, false) :: l, open?)
    let (l, isOpen) := if raw then (t.map (·, false), false) else marks t
    if isOpen ∧ isWhole then
      let (more, whole) ← readLogical raw fuel
      return (l ++ more, whole)
    else return (l, isWhole)

/-- The fields of a line, the last of them with all that is left. -/
def fieldsOf (dividers : Text) : (count : Nat) → List (Char × Bool) → List Text
  | 0, _ => []
  | 1, l =>
    let isGap (m : Char × Bool) : Bool := !m.2 && dividers.contains m.1 && Arithmetic.isSpace m.1
    [((l.reverse.dropWhile isGap).reverse).map (·.1)]
  | count + 1, l =>
    let divides (m : Char × Bool) : Bool := !m.2 && dividers.contains m.1
    let isGap (m : Char × Bool) : Bool := divides m && Arithmetic.isSpace m.1
    let field := l.takeWhile (!divides ·)
    let rest := (l.drop field.length).dropWhile isGap
    let rest :=
      match rest with
      | m :: r => if divides m then r.dropWhile isGap else rest
      | [] => []
    field.map (·.1) :: fieldsOf dividers count rest

/-- Whether backslashes stand for themselves, and the names of the variables; `-p` takes a text. -/
def readingOptions : List Text → Action (Bool × List Text)
  | [] => return (false, [])
  | a :: rest => do
    match a with
    | '-' :: c :: cs =>
      if a = "--" then return (false, rest)
      let flags := (c :: cs).takeWhile (· ≠ 'p')
      if let some c := flags.find? (· ≠ 'r') then Action.fail ("Illegal option " ++ ['-', c])
      let takesNext := flags.length + 1 = (c :: cs).length
      if takesNext ∧ rest.isEmpty then Action.fail "No arg for -p option"
      let (raw, names) ← readingOptions (rest.drop (if takesNext then 1 else 0))
      return (raw || !flags.isEmpty, names)
    | _ => return (false, a :: rest)
termination_by arguments => arguments.length
decreasing_by all_goals simp only [List.length_cons, List.length_drop]; omega

def readLine (arguments : List Text) : Action Nat := do
  let (raw, names) ← readingOptions arguments
  if names.isEmpty then Action.fail "arg count"
  let (l, isWhole) ← readLogical raw 1000
  let dividers := (← get).dividers
  let isGap (m : Char × Bool) : Bool :=
    !m.2 && dividers.contains m.1 && Arithmetic.isSpace m.1
  let values := fieldsOf dividers names.length (l.dropWhile isGap)
  for (name, value) in names.zip values do
    if !Word.isName name then Action.fail (name ++ ": bad variable name")
    Action.assign name value
  return status isWhole

end Builtin

end FloatFlattening.Shell
