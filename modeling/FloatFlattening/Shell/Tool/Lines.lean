import FloatFlattening.Shell.Arithmetic
import FloatFlattening.Shell.Tool.Basic
import FloatFlattening.Text.Utf8
/-!
Tools that read files, or the input stream, and print some or all of it, mostly line by line.
-/

namespace FloatFlattening.Shell.Tool

/-- Bytes as lines, each with its end. -/
def linesOf (b : Bytes) : List Bytes :=
  let parts := b.splitOn 10
  (parts.dropLast.map (· ++ [10])) ++ (parts.getLast?.filter (· ≠ [])).toList

/-- Lines of which the last ends like the others. -/
def wholeLines (b : Bytes) : List Bytes :=
  (linesOf b).map fun l => if l.getLast? = some 10 then l else l ++ [10]

/-- A number at the end of a field of the given width. -/
def aligned (width n : Nat) : Bytes :=
  let digits := Nat.toDigits 10 n
  Text.toBytes (List.replicate (width - digits.length) ' ' ++ digits)

/-- Lines with their numbers; only those that are not empty have one if `filled`. -/
def numbered (filled : Bool) : Nat → List Bytes → List Bytes
  | _, [] => []
  | n, l :: ls =>
    if filled ∧ l = [10] then l :: numbered filled n ls
    else (aligned 6 n ++ [9] ++ l) :: numbered filled (n + 1) ls

def concatenate (t : Tool) : Action Nat :=
  t.given ['n', 'b', 'E', 'T', 'A', 'e', 't', 's', 'u', 'v'] [] false fun g => do
    let (b, status) ← t.input g.operands plainReason
    let marksEnds := g.has 'E' || g.has 'A' || g.has 'e'
    let marksTabs := g.has 'T' || g.has 'A' || g.has 't'
    let isDrawn := g.has 'n' || g.has 'b' || marksEnds || marksTabs
    let shown (c : UInt8) : Bytes :=
      if c = 10 ∧ marksEnds then [36, 10] else if c = 9 ∧ marksTabs then [94, 73] else [c]
    let drawn (l : Bytes) : Bytes := l.flatMap shown
    if !isDrawn then print b
    else
      let isPlain := !g.has 'n' && !g.has 'b'
      let ls := linesOf b
      let ls := if isPlain then ls.map drawn else (numbered (g.has 'b') 1 ls).map fun l =>
        if marksTabs then l.take 7 ++ drawn (l.drop 7) else drawn l
      print ls.flatten
    return status

/-! ## Beginnings and ends -/

/-- How much of a file is wanted. -/
structure Extent where
  count : Nat
  sign : Option Char
  ofBytes : Bool
  deriving DecidableEq, Repr

/-- The extent that a text asks for. -/
def Extent.ofText? (ofBytes : Bool) (a : Text) : Option Extent :=
  let (sign, digits) : Option Char × Text :=
    match a with
    | '+' :: d => (some '+', d)
    | '-' :: d => (some '-', d)
    | d => (none, d)
  if digits.isEmpty || !digits.all Char.isDigit then none
  else some ⟨Decimal.value digits, sign, ofBytes⟩

/-- The first pieces, or all but the last. -/
def Extent.head (e : Extent) (pieces : List Bytes) : List Bytes :=
  if e.sign = some '-' then pieces.take (pieces.length - e.count) else pieces.take e.count

/-- The last pieces, or those from the one with the given number on. -/
def Extent.tail (e : Extent) (pieces : List Bytes) : List Bytes :=
  if e.sign = some '+' then pieces.drop (e.count - 1)
  else pieces.drop (pieces.length - e.count)

/-- A part of each file, with a title if there are several. -/
def excerpts (t : Tool) (select : Extent → List Bytes → List Bytes) : Action Nat := do
  let arguments :=
    match t.arguments with
    | ('-' :: c :: n) :: rest => if c.isDigit then ['-', 'n'] :: (c :: n) :: rest else t.arguments
    | _ => t.arguments
  ({ t with arguments } : Tool).given ['q', 'v'] ['n', 'c'] false fun g => do
    let extent :=
      match g.value? 'c', g.value? 'n' with
      | some a, _ => (a, Extent.ofText? true a)
      | none, some a => (a, Extent.ofText? false a)
      | none, none => ([], some ⟨10, none, false⟩)
    match extent with
    | (a, none) =>
      t.complain ("invalid number of " ++ (if g.has 'c' then "bytes: " else "lines: ") ++ quoted a)
    | (_, some e) =>
      let files := if g.operands.isEmpty then [['-']] else g.operands
      let isTitled := (1 < files.length || g.has 'v') && !g.has 'q'
      let results ← (files.zip (List.range files.length)).mapM fun (p, i) => do
        match ← content p with
        | .error .isDirectory => t.complain ("error reading " ++ quoted p ++ ": Is a directory")
        | .error o => t.complain ("cannot open " ++ quoted p ++ " for reading: " ++ reason o)
        | .ok b =>
          let name : Text := if p = "-" then "standard input" else p
          if isTitled then
            printText ((if i = 0 then [] else ['\n']) ++ "==> " ++ name ++ " <==\n")
          print (select e (if e.ofBytes then b.map ([·]) else linesOf b)).flatten
          return (0 : Nat)
      return (results.filter (· ≠ 0)).getLast?.getD 0

/-! ## Counting -/

def wordCount (b : Bytes) : Nat :=
  let isGap (c : UInt8) : Bool := c = 32 || (9 ≤ c && c ≤ 13)
  (b.foldl (fun (n, inside) c => if isGap c then (n, false) else (if inside then n else n + 1, true))
    ((0 : Nat), false)).1

def counts (t : Tool) : Action Nat :=
  t.given ['l', 'w', 'c', 'm'] [] false fun g => do
    let chosen (b : Bytes) : List Nat :=
      let all := [('l', b.count 10), ('w', wordCount b), ('m', (Text.ofBytes b).length), ('c', b.length)]
      let picked := all.filter fun (c, _) => g.has c
      (if picked.isEmpty then all.filter (·.1 ≠ 'm') else picked).map (·.2)
    let files := if g.operands.isEmpty then [['-']] else g.operands
    let d := (← get).disk
    let isStream := files.any (· = "-")
    let total := (files.map fun p => ((d.read p).toOption.getD []).length).sum
    let width :=
      if files.length = 1 ∧ (chosen []).length = 1 then 1
      else max (Nat.toDigits 10 total).length (if isStream then 7 else 1)
    let line (ns : List Nat) (p : Text) : Bytes :=
      (List.intercalate [32] (ns.map (aligned width))) ++
        Text.toBytes ((if p.isEmpty then [] else ' ' :: p) ++ ['\n'])
    let results ← files.mapM fun p => do
      match ← content p with
      | .ok b =>
        print (line (chosen b) (if g.operands.isEmpty then [] else p))
        return (chosen b, 0)
      | .error o => return ((chosen []).map fun _ => 0, ← t.complain (plainReason p o))
    if 1 < files.length then
      print (line (results.foldl (fun ns r => List.zipWith (· + ·) ns r.1) ((chosen []).map fun _ => 0))
        "total")
    return (results.map (·.2)).foldl max 0

/-! ## Lines in order -/

/-- The number at the beginning of a line. -/
def lineNumber (l : Bytes) : Int :=
  let (sign, digits) := Arithmetic.signed ((Text.ofBytes l).dropWhile Arithmetic.isSpace)
  sign * Decimal.value (digits.takeWhile Char.isDigit)

def sort (t : Tool) : Action Nat :=
  t.given ['n', 'r', 'u', 'f', 'b'] [] false (fun g => do
    let (b, status) ← t.input g.operands
      (fun p o => (if o = .missing then "cannot read: " else "read failed: ") ++ plainReason p o) 2
    let key (l : Bytes) : Int × Bytes :=
      (if g.has 'n' then lineNumber l else 0,
        if g.has 'f' then Text.toBytes ((Text.ofBytes l).map Char.toUpper) else if g.has 'n' then [] else l)
    let before (a b : Bytes) : Bool :=
      let (n, x) := key a
      let (m, y) := key b
      n < m || (n = m && (x < y || (x = y && a ≤ b)))
    let sorted := (wholeLines b).mergeSort before
    let sorted := if g.has 'r' then sorted.reverse else sorted
    let rec single : List Bytes → List Bytes
      | a :: b :: ls => if key a = key b then single (a :: ls) else a :: single (b :: ls)
      | ls => ls
    print (if g.has 'u' then single sorted else sorted).flatten
    return status) 2

/-- Equal lines that follow one another, each with their number. -/
def runs : List Bytes → List (Nat × Bytes)
  | [] => []
  | l :: ls =>
    match runs ls with
    | (n, k) :: rest => if k = l then (n + 1, k) :: rest else (1, l) :: (n, k) :: rest
    | [] => [(1, l)]

def unique (t : Tool) : Action Nat :=
  t.given ['c', 'd', 'u'] [] false fun g => do
    let (b, status) ← t.input (g.operands.take 1) plainReason
    let wanted := (runs (wholeLines b)).filter fun (n, _) =>
      (!g.has 'd' || 1 < n) && (!g.has 'u' || n = 1)
    print (wanted.flatMap fun (n, l) => if g.has 'c' then aligned 7 n ++ [32] ++ l else l)
    return status

def backwards (t : Tool) : Action Nat :=
  t.given [] [] false fun g => do
    let (b, status) ← t.input g.operands fun p o =>
      "failed to open " ++ quoted p ++ " for reading: " ++ reason o
    print (linesOf b).reverse.flatten
    return status

/-! ## Parts of lines -/

/-- Whether a list of ranges such as `1,3-5` has a number. -/
def isListed (ranges : Text) (n : Nat) : Bool :=
  (ranges.splitOn ',').any fun r =>
    match r.splitOn '-' with
    | [a] => n = Decimal.value a
    | [a, b] => Decimal.value a ≤ n && (b.isEmpty || n ≤ Decimal.value b)
    | _ => false

def cut (t : Tool) : Action Nat :=
  t.given ['s'] ['d', 'f', 'c', 'b'] false fun g => do
    let listed (r : Text) (pieces : List Bytes) : List Bytes :=
      ((pieces.zip (List.range pieces.length)).filter fun (_, i) => isListed r (i + 1)).map (·.1)
    let (b, status) ← t.input g.operands plainReason
    let divider : UInt8 := ((Text.toBytes ((g.value? 'd').getD ['\t'])).head?).getD 9
    let part (l : Bytes) : Option Bytes :=
      match g.value? 'f' with
      | some r =>
        let fields := l.splitOn divider
        if fields.length = 1 then if g.has 's' then none else some l
        else some (List.intercalate [divider] (listed r fields))
      | none => some (listed ((g.value? 'c').getD ((g.value? 'b').getD [])) (l.map ([·]))).flatten
    if g.value? 'f' = none ∧ g.value? 'c' = none ∧ g.value? 'b' = none then
      t.hint "you must specify a list of bytes, characters, or fields"
    else
      print ((wholeLines b).filterMap fun l => (part l.dropLast).map (· ++ [10])).flatten
      return status

/-! ## Characters -/

def characterClasses : List (Text × Text) := [
  ("[:lower:]", "abcdefghijklmnopqrstuvwxyz"), ("[:upper:]", "ABCDEFGHIJKLMNOPQRSTUVWXYZ"),
  ("[:digit:]", "0123456789"), ("[:space:]", " \t\n\x0b\x0c\r"), ("[:blank:]", " \t"),
  ("[:alpha:]", "abcdefghijklmnopqrstuvwxyzABCDEFGHIJKLMNOPQRSTUVWXYZ"),
  ("[:alnum:]", "0123456789abcdefghijklmnopqrstuvwxyzABCDEFGHIJKLMNOPQRSTUVWXYZ"),
  ("[:punct:]", "!\"#$%&'()*+,-./:;<=>?@[\\]^_`\x7b|\x7d~")]

/-- The characters that a set names, with ranges and classes. -/
def characters : (fuel : Nat) → Text → Text
  | 0, _ | _, [] => []
  | fuel + 1, t =>
    match characterClasses.find? fun (name, _) => name.isPrefixOf t with
    | some (name, cs) => cs ++ characters fuel (t.drop name.length)
    | none =>
      match t with
      | '\\' :: 'n' :: t => '\n' :: characters fuel t
      | '\\' :: 't' :: t => '\t' :: characters fuel t
      | '\\' :: '\\' :: t => '\\' :: characters fuel t
      | a :: '-' :: b :: t =>
        (List.range (b.toNat + 1 - a.toNat)).map (fun k => Char.ofNat (a.toNat + k)) ++ characters fuel t
      | c :: t => c :: characters fuel t
      | [] => []

/-- Leaves only one of the same characters that follow one another. -/
def squeezed (set : Text) : Text → Text
  | a :: b :: t => if a = b ∧ set.contains a then squeezed set (b :: t) else a :: squeezed set (b :: t)
  | t => t

def exchange (t : Tool) : Action Nat := do
  match Given.read ['d', 's', 'c', 'C', 't'] [] true t.arguments with
  | .error message => t.hint message
  | .ok g =>
    let isOther := g.has 'c' || g.has 'C'
    let isIn (set : Text) (c : Char) : Bool := set.contains c != isOther
    let set (a : Text) : Text := characters a.length a
    let squeeze (cs t : Text) : Text := if g.has 's' then squeezed cs t else t
    match g.operands with
    | [] => t.hint "missing operand"
    | first :: rest =>
      let from' := set first
      match rest with
      | [] =>
        if !g.has 'd' ∧ !g.has 's' then
          t.hint ("missing operand after " ++ quoted first ++
            "\nTwo strings must be given when translating.")
        else
          let b := Text.ofBytes (← Action.take 0 false)
          printText (if g.has 'd' then b.filter (!isIn from' ·) else squeeze from' b)
          return 0
      | second :: _ =>
        let b := Text.ofBytes (← Action.take 0 false)
        let onto := set second
        let filler := onto.getLast?.getD ' '
        let table := from'.zip (onto ++ List.replicate from'.length filler)
        let changed (c : Char) : Char :=
          if isOther then if isIn from' c then filler else c else ((table.reverse.lookup c)).getD c
        printText (squeeze onto
          (if g.has 'd' then b.filter (!isIn from' ·) else b.map changed))
        return 0

def copyInput (t : Tool) : Action Nat :=
  t.given ['a', 'i'] [] false fun g => do
    let b ← Action.take 0 false
    print b
    each g.operands fun p => t.onDisk (named p) fun d =>
      d.write p ((if g.has 'a' then (d.read p).toOption.getD [] else []) ++ b)

end FloatFlattening.Shell.Tool
