import FloatFlattening.Png.PrefixCode
import FloatFlattening.Text.Utf8
/-!
Compressed data: blocks of bytes, in which a part that has been there before is written as its
length and how far back it began, and a checksum after them.
-/

namespace FloatFlattening.Png.Compressed

open BitReader

/-- The codes of a block: one for bytes, the end and lengths, the other for distances. -/
structure Codes where
  symbols : PrefixCode
  distances : PrefixCode
  deriving DecidableEq, Repr

/-- The codes of a block that does not tell its own. -/
def Codes.fixed : Codes :=
  ⟨.ofLengths (List.replicate 144 8 ++ List.replicate 112 9 ++ List.replicate 24 7 ++
    List.replicate 8 8), .ofLengths (List.replicate 32 5)⟩

/-- The least value that each symbol stands for, and the number of bits that are added to it. -/
def ranges : (least : Nat) → (added : List Nat) → List (Nat × Nat)
  | _, [] => []
  | least, n :: added => (least, n) :: ranges (least + 2 ^ n) added

def lengthRanges : List (Nat × Nat) :=
  let added := List.replicate 8 0 ++ [1, 2, 3, 4, 5].flatMap (List.replicate 4)
  ranges 3 added ++ [(258, 0)]

def distanceRanges : List (Nat × Nat) :=
  ranges 1 ([0, 0] ++ (List.range 14).flatMap (List.replicate 2))

example : lengthRanges.length = 29 ∧ lengthRanges[27]? = some (227, 5) := by decide
example : distanceRanges.length = 30 ∧ distanceRanges[29]? = some (24577, 13) := by decide

/-- The value that a symbol stands for. -/
def value (ranges : List (Nat × Nat)) (symbol : Nat) : BitReader Nat := do
  match ranges[symbol]? with
  | some (least, added) => return least + (← bits added)
  | none => failure

/-- Repeats what was written some way back, byte by byte. -/
def repeated (distance : Nat) : (length : Nat) → Array UInt8 → Option (Array UInt8)
  | 0, out => some out
  | n + 1, out => do
    if out.size < distance then none
    repeated distance n (out.push (← out[out.size - distance]?))

/-- The symbols of a block up to its end. -/
def content (c : Codes) : (fuel : Nat) → Array UInt8 → BitReader (Array UInt8)
  | 0, _ => failure
  | fuel + 1, out => do
    let symbol ← c.symbols.read
    if symbol < 256 then content c fuel (out.push (UInt8.ofNat symbol))
    else if symbol = 256 then return out
    else
      let length ← value lengthRanges (symbol - 257)
      let distance ← value distanceRanges (← c.distances.read)
      match repeated distance length out with
      | some out => content c fuel out
      | none => failure

/-- Lengths of words, which are themselves written in a code; `before` are those already read, the
latest first. -/
def wordLengths (c : PrefixCode) (wanted : Nat) : (fuel : Nat) → (before : List Nat) →
    BitReader (List Nat)
  | 0, _ => failure
  | fuel + 1, before => do
    if wanted < before.length then failure
    else if before.length = wanted then return before.reverse
    else
      let symbol ← c.read
      if symbol < 16 then wordLengths c wanted fuel (symbol :: before)
      else if symbol = 16 then
        match before with
        | [] => failure
        | n :: _ => wordLengths c wanted fuel (List.replicate (3 + (← bits 2)) n ++ before)
      else
        let (least, added) : Nat × Nat := if symbol = 17 then (3, 3) else (11, 7)
        let count := least + (← bits added)
        wordLengths c wanted fuel (List.replicate count 0 ++ before)

/-- The order in which the lengths are told of the code for lengths. -/
def lengthOrder : List Nat := [16, 17, 18, 0, 8, 7, 9, 6, 10, 5, 11, 4, 12, 3, 13, 2, 14, 1, 15]

/-- The codes that a block tells. -/
def codes : BitReader Codes := do
  let symbols := 257 + (← bits 5)
  let distances := 1 + (← bits 5)
  let told ← (lengthOrder.take (4 + (← bits 4))).mapM fun symbol => return (symbol, ← bits 3)
  let c := PrefixCode.ofLengths ((List.range 19).map fun n => (told.lookup n).getD 0)
  if 286 < symbols ∨ 30 < distances ∨ !c.isComplete then failure
  let lengths ← wordLengths c (symbols + distances) (symbols + distances + 1) []
  let found : Codes := ⟨.ofLengths (lengths.take symbols), .ofLengths (lengths.drop symbols)⟩
  if found.symbols.isComplete && (found.distances.isComplete || found.distances.isTrivial) then
    return found
  else failure

/-- A block, and whether it is the last. -/
def block (fuel : Nat) (out : Array UInt8) : BitReader (Array UInt8 × Bool) := do
  let isLast ← bit
  match ← bits 2 with
  | 0 =>
    align
    let size ← bits 16
    if size + (← bits 16) ≠ 65535 then failure
    let bytes ← (List.range size).mapM fun _ => bits 8
    return (out ++ bytes.map UInt8.ofNat, isLast)
  | 1 => return (← content .fixed fuel out, isLast)
  | 2 => return (← content (← codes) fuel out, isLast)
  | _ => failure

def blocks : (fuel : Nat) → Array UInt8 → BitReader (Array UInt8)
  | 0, _ => failure
  | fuel + 1, out => do
    match ← block fuel out with
    | (out, true) => return out
    | (out, false) => blocks fuel out

/-- Two sums of bytes, the second of them of all that the first one was. -/
def checksum (b : Array UInt8) : Nat :=
  let (first, second) : Nat × Nat := b.foldl (fun (first, second) x =>
    let first := (first + x.toNat) % 65521
    (first, (second + first) % 65521)) (1, 0)
  65536 * second + first

def bitsOf (b : Bytes) : List Bool := b.flatMap fun x => (List.range 8).map x.toNat.testBit

/-- What the data was before it was compressed. -/
def open? (b : Bytes) : Option (Array UInt8) :=
  match b with
  | method :: flags :: data =>
    let (m, f) := (method.toNat, flags.toNat)
    if m % 16 ≠ 8 ∨ 7 < m / 16 ∨ f / 32 % 2 = 1 ∨ (256 * m + f) % 31 ≠ 0 then none
    else
      let source := bitsOf data
      let whole : BitReader (Array UInt8) := do
        let out ← blocks (source.length + 1) #[]
        align
        let check ← (List.range 4).mapM fun _ => bits 8
        if check.foldl (256 * · + ·) 0 = checksum out then return out else failure
      (whole.run source).map (·.1)
  | _ => none

end FloatFlattening.Png.Compressed
