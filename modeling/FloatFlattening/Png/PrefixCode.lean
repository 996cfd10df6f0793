/-!
Prefix codes that are given by the lengths of their words. Words of one length follow one another in
the order of their symbols, and the first of them follows the words that are shorter.
-/

namespace FloatFlattening.Png

/-- Reads bits, of which there may be too few. -/
abbrev BitReader := StateT (List Bool) Option

namespace BitReader

def bit : BitReader Bool
  | [] => none
  | b :: rest => some (b, rest)

/-- A number of so many bits, the least significant one first. -/
def bits : Nat → BitReader Nat
  | 0 => return 0
  | n + 1 => do
    let b ← bit
    return b.toNat + 2 * (← bits n)

/-- Passes over the rest of a byte. -/
def align : BitReader Unit := modify fun rest => rest.drop (rest.length % 8)

end BitReader

structure PrefixCode where
  /-- How many words there are of each length, from one bit on. -/
  counts : List Nat
  /-- The symbols in the order of their words. -/
  symbols : List Nat
  deriving DecidableEq, Repr

namespace PrefixCode

def maxLength : Nat := 15

/-- The code whose words have these lengths; a symbol of length zero has none. -/
def ofLengths (lengths : List Nat) : PrefixCode :=
  let used (n : Nat) : List Nat := (lengths.zipIdx.filter (·.1 = n)).map (·.2)
  let classes := (List.range maxLength).map fun n => used (n + 1)
  ⟨classes.map List.length, classes.flatten⟩

/-- The number of longest words that are left when the words of each length are taken out of those
that are `free`. -/
def left? : (free : Nat) → List Nat → Option Nat
  | free, [] => some free
  | free, n :: counts => if 2 * free < n then none else left? (2 * free - n) counts

/-- Whether any bits begin with a word, and with just one. -/
def isComplete (c : PrefixCode) : Bool := left? 1 c.counts = some 0

/-- Whether there is at most one word, of one bit. -/
def isTrivial (c : PrefixCode) : Bool := c.symbols.length ≤ 1 && c.counts.tail.all (· = 0)

/-- Reads a word. Of the words as long as what was read, `first` is the first. -/
def readFrom : (read first : Nat) → (counts symbols : List Nat) → BitReader Nat
  | _, _, [], _ => failure
  | read, first, n :: counts, symbols => do
    let read := 2 * read + (← BitReader.bit).toNat
    let first := 2 * first
    if read < first + n then
      match symbols[read - first]? with
      | some symbol => return symbol
      | none => failure
    else readFrom read (first + n) counts (symbols.drop n)

def read (c : PrefixCode) : BitReader Nat := readFrom 0 0 c.counts c.symbols

example : ((ofLengths [2, 1, 3, 3]).read.run [true, true, false, true]) = some (2, [true]) := rfl

end PrefixCode

end FloatFlattening.Png
