import FloatFlattening.Shell.Real
import FloatFlattening.Text.Utf8
/-!
Formatted output. A format is used again as long as it has arguments left; an argument that is
missing is empty.
-/

namespace FloatFlattening.Shell

/-- A pass of a format over its arguments. -/
structure Printf.Pass where
  bytes : Bytes := []
  rest : List Text
  /-- What is wrong with the arguments. -/
  problems : List Text := []
  /-- What is wrong with the format, which ends the output. -/
  flaw : Option Text := none
  /-- Whether the output ends here for good. -/
  ended : Bool := false
  deriving DecidableEq, Repr

/-- How a directive wants its argument. -/
structure Printf.Form where
  flags : Text
  width : Nat
  left : Bool
  precision : Option Nat
  deriving DecidableEq, Repr

namespace Printf

def isOctal (c : Char) : Bool := '0' ≤ c && c ≤ '7'

def octal (digits : Text) : Bytes :=
  [(digits.foldl (fun n c => 8 * n + (c.toNat - '0'.toNat)) 0).toUInt8]

def controls : List (Char × UInt8) :=
  [('a', 7), ('b', 8), ('e', 27), ('f', 12), ('n', 10), ('r', 13), ('t', 9), ('v', 11), ('\\', 92)]

/-- What a backslash before a text stands for, and the rest of the text. With `full`, an escape may
have hexadecimal digits, and a quotation mark. -/
def escape (full : Bool) (t : Text) : Bytes × Text :=
  let digits := (t.take 3).takeWhile isOctal
  if !digits.isEmpty then (octal digits, t.drop digits.length)
  else
    match t with
    | [] => ([92], [])
    | c :: r =>
      let hex := (r.take 2).takeWhile Arithmetic.isHexDigit
      if full ∧ c = 'x' ∧ !hex.isEmpty then
        let n : Nat := hex.foldl (fun n c => 16 * n + Arithmetic.digitValue c) 0
        ([n.toUInt8], r.drop hex.length)
      else if full ∧ c = '"' then ([34], r)
      else
        match controls.lookup c with
        | some b => ([b], r)
        | none => ([92], c :: r)

/-- A text with its escapes; `\c` ends all output. A zero may come before the octal digits. -/
def unescape (full : Bool) : (fuel : Nat) → Text → Bytes × Bool
  | 0, _ | _, [] => ([], false)
  | _, '\\' :: 'c' :: _ => ([], true)
  | fuel + 1, '\\' :: '0' :: t =>
    let digits := (t.take 3).takeWhile isOctal
    let (b, ended) := unescape full fuel (t.drop digits.length)
    (octal digits ++ b, ended)
  | fuel + 1, '\\' :: t =>
    let (first, rest) := escape full t
    let (b, ended) := unescape full fuel rest
    (first ++ b, ended)
  | fuel + 1, c :: t =>
    let (b, ended) := unescape full fuel t
    (Text.toBytes [c] ++ b, ended)

/-- Fills up to the width, with zeros after the sign if they are wanted. -/
def Form.pad (f : Form) (zeros : Bool) (sign b : Bytes) : Bytes :=
  let missing := f.width - (sign.length + b.length)
  if f.left then sign ++ b ++ List.replicate missing 32
  else if zeros ∧ f.flags.contains '0' then sign ++ List.replicate missing 48 ++ b
  else List.replicate missing 32 ++ sign ++ b

/-- The number an argument stands for, a character after a quotation mark for its code. -/
def numberOf (a : Text) : Int × Option Text :=
  match a with
  | [] => (0, none)
  | c :: t =>
    if c = '"' ∨ c = '\'' then (((t.head?.map (·.toNat)).getD 0 : Nat), none)
    else
      let (sign, digits) := Arithmetic.signed (a.dropWhile Arithmetic.isSpace)
      let (n, rest) := Arithmetic.leading digits
      if !digits.head?.any Char.isDigit then (0, some (a ++ ": expected numeric value"))
      else if !rest.isEmpty then (sign * n, some (a ++ ": not completely converted"))
      else if n = Arithmetic.largest ∧ Decimal.value digits > Arithmetic.largest.toNat then
        (n, some (a ++ ": Numerical result out of range"))
      else (sign * n, none)

/-- What comes before the digits of a number. -/
def Form.signOf (f : Form) (isNegative : Bool) : Text :=
  if isNegative then "-" else if f.flags.contains '+' then "+" else if f.flags.contains ' ' then " " else []

/-- A number in a form, in base eight or sixteen or, with a sign, in base ten. Without a sign, one
below zero is counted from 2 ^ 64. -/
def Form.number (f : Form) (kind : Char) (n : Int) : Bytes :=
  let size : Nat := if kind = 'd' then n.natAbs else (n % (2 ^ 64 : Int)).toNat
  let base := if kind = 'o' then 8 else if kind = 'x' ∨ kind = 'X' then 16 else 10
  let digits := Nat.toDigits base size
  let digits := if kind = 'X' then digits.map Char.toUpper else digits
  let digits := if f.precision = some 0 ∧ size = 0 then [] else digits
  let digits := List.replicate (f.precision.getD 0 - digits.length) '0' ++ digits
  let mark : Text :=
    if kind = 'd' then f.signOf (n < 0)
    else if f.flags.contains '#' ∧ size ≠ 0 then
      if kind = 'x' then "0x" else if kind = 'X' then "0X" else if kind = 'o' then "0" else []
    else []
  f.pad f.precision.isNone (Text.toBytes mark) (Text.toBytes digits)

/-- The number with a fraction that an argument stands for. -/
def realOf (a : Text) : Real × Option Text :=
  match a with
  | [] => (Real.zero, none)
  | c :: t =>
    if c = '"' ∨ c = '\'' then
      (((Real.leading? (Text.ofNat ((t.head?.map (·.toNat)).getD 0))).map (·.1)).getD Real.zero, none)
    else
      match Real.leading? (a.dropWhile Arithmetic.isSpace) with
      | none => (Real.zero, some (a ++ ": expected numeric value"))
      | some (x, []) => (x, none)
      | some (x, _) => (x, some (a ++ ": not completely converted"))

/-- A number with a fraction in a form. -/
def Form.real (f : Form) (kind : Char) (x : Real) : Bytes :=
  let isMarked := f.flags.contains '#'
  let places := f.precision.getD 6
  let e : Char := if kind.isUpper then 'E' else 'e'
  let digits :=
    if kind = 'f' ∨ kind = 'F' then x.fixed places isMarked
    else if kind = 'e' ∨ kind = 'E' then x.scientific e places isMarked
    else x.general e places isMarked
  f.pad true (Text.toBytes (f.signOf x.isNegative)) (Text.toBytes digits)

/-- The width of a directive, which may be an argument, and what is left. -/
def widthOf (t : Text) (arguments : List Text) : Int × Text × List Text :=
  match t with
  | '*' :: t => ((numberOf (arguments.head?.getD [])).1, t, arguments.tail)
  | t =>
    let digits := t.takeWhile Char.isDigit
    (Decimal.value digits, t.drop digits.length, arguments)

/-- The form of a directive, after its percent sign. -/
def formOf (t : Text) (arguments : List Text) : Form × Text × List Text :=
  let flags := t.takeWhile (['-', '0', ' ', '+', '#'].contains ·)
  let (width, t, arguments) := widthOf (t.drop flags.length) arguments
  let (precision, t, arguments) : Option Int × Text × List Text :=
    match t with
    | '.' :: t =>
      let (n, t, arguments) := widthOf t arguments
      (some n, t, arguments)
    | t => (none, t, arguments)
  let precision := (precision.filter (0 ≤ ·)).map Int.toNat
  (⟨flags, width.natAbs, flags.contains '-' || width < 0, precision⟩, t, arguments)

/-- One pass of a format. -/
def once (full : Bool) : (fuel : Nat) → (format : Text) → List Text → Pass
  | 0, _, arguments | _, [], arguments => { rest := arguments }
  | fuel + 1, '\\' :: t, arguments =>
    let (b, t) := escape full t
    let p := once full fuel t arguments
    { p with bytes := b ++ p.bytes }
  | fuel + 1, '%' :: '%' :: t, arguments =>
    let p := once full fuel t arguments
    { p with bytes := 37 :: p.bytes }
  | fuel + 1, '%' :: t, arguments =>
    let (f, rest, arguments) := formOf t arguments
    let a := arguments.head?.getD []
    match rest with
    | [] => { rest := arguments, flaw := some "missing format character" }
    | kind :: after =>
      if kind = 'b' then
        let (b, ended) := unescape full a.length a
        let b := f.pad false [] (b.take (f.precision.getD b.length))
        if ended then { bytes := b, rest := [], ended }
        else
          let p := once full fuel after arguments.tail
          { p with bytes := b ++ p.bytes }
      else if kind = 's' ∨ kind = 'c' then
        let b := Text.toBytes a
        let b := if kind = 'c' then [b.head?.getD 0] else b.take (f.precision.getD b.length)
        let p := once full fuel after arguments.tail
        { p with bytes := f.pad false [] b ++ p.bytes }
      else if (['d', 'i', 'u', 'x', 'X', 'o'] : List Char).contains kind then
        let (n, problem) := numberOf a
        let p := once full fuel after arguments.tail
        { p with
          bytes := f.number (if kind = 'i' then 'd' else kind) n ++ p.bytes
          problems := problem.toList ++ p.problems }
      else if (['f', 'F', 'e', 'E', 'g', 'G'] : List Char).contains kind then
        let (x, problem) := realOf a
        let p := once full fuel after arguments.tail
        { p with bytes := f.real kind x ++ p.bytes, problems := problem.toList ++ p.problems }
      else
        let directive := '%' :: t.take (t.length - after.length)
        { rest := arguments, flaw := some (directive ++ ": invalid directive") }
  | fuel + 1, c :: t, arguments =>
    let p := once full fuel t arguments
    { p with bytes := Text.toBytes [c] ++ p.bytes }

/-- As many passes of a format as its arguments need, at least one. -/
def passes (full : Bool) (format : Text) : (fuel : Nat) → List Text → Pass
  | 0, arguments => once full format.length format arguments
  | fuel + 1, arguments =>
    let p := once full format.length format arguments
    if p.ended ∨ p.flaw.isSome ∨ p.rest.isEmpty ∨ p.rest.length = arguments.length then p
    else
      let q := passes full format fuel p.rest
      { q with bytes := p.bytes ++ q.bytes, problems := p.problems ++ q.problems }

end Printf

/-- The output for a format with arguments. -/
def printf (full : Bool) (format : Text) (arguments : List Text) : Printf.Pass :=
  Printf.passes full format arguments.length arguments

/-- Arguments on a line, with their escapes; a first argument `-n` leaves out the end of the line. -/
def echo (arguments : List Text) : Bytes :=
  let isBare := arguments.head? = some "-n"
  let t := Text.joinWith " " (if isBare then arguments.tail else arguments)
  let (b, ended) := Printf.unescape false t.length t
  if isBare || ended then b else b ++ [10]

end FloatFlattening.Shell
