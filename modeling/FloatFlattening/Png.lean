import FloatFlattening.Png.Chunk
import FloatFlattening.Png.Compressed
/-!
The size of a PNG picture, read from a file far enough to see that its picture data begins. A chunk
that does not bear on the picture may be faulty; one that does must be in order. What is kept of the
chunks takes up memory, and there must be enough left for a row of the picture.
-/

namespace FloatFlattening.Png

def signature : Bytes := [0x89, 0x50, 0x4E, 0x47, 0x0D, 0x0A, 0x1A, 0x0A]

structure Header where
  width : Nat
  height : Nat
  depth : UInt8
  /-- Grey is 0, colours are 2, numbers in a palette 3; 4 and 6 add opacity to 0 and 2. -/
  color : UInt8
  deriving DecidableEq, Repr

/-- The bit depths of each colour type. -/
def depths : UInt8 → List UInt8
  | 0 => [1, 2, 4, 8, 16]
  | 3 => [1, 2, 4, 8]
  | 2 | 4 | 6 => [8, 16]
  | _ => []

namespace Header

def ofBytes? (b : Bytes) : Option Header :=
  let (width, height) := (number (b.take 4), number ((b.drop 4).take 4))
  match b.drop 8 with
  | [depth, color, 0, 0, interlace] =>
    if width = 0 ∨ height = 0 ∨ depth ∉ depths color ∨ 1 < interlace then none
    else some ⟨width, height, depth, color⟩
  | _ => none

def indexed (h : Header) : Bool := h.color = 3

/-- The values of a point once palette numbers are colours. -/
def samples (h : Header) (transparent : Bool) : Nat :=
  match h.color with
  | 0 => if transparent then 2 else 1
  | 2 | 3 => if transparent then 4 else 3
  | 4 => 2
  | _ => 4

/-- The bytes of a row, each value having one or two. -/
def rowSize (h : Header) (transparent : Bool) : Nat :=
  h.width * h.samples transparent * if h.depth = 16 then 2 else 1

end Header

/-- The bytes that may be kept while a picture is read. -/
def memory : Nat := 0x20000000

/-- What the chunks before the picture data have said. -/
structure Preamble where
  palette : Bool := false
  transparent : Bool := false
  codePoints : Bool := false
  profile : Bool := false
  /-- The number of the last frame. -/
  frame : Option Nat := none
  /-- The size of the largest chunk that there is space for; it is doubled as needed. -/
  space : Nat := 128
  /-- The bytes that may still be kept. -/
  free : Nat := memory
  deriving DecidableEq, Repr

namespace Preamble

/-- Transparency names a colour of the picture, or comes with a palette. -/
def takesTransparency (p : Preamble) (h : Header) (size : Nat) : Bool :=
  match h.color with
  | 0 => 2 ≤ size
  | 2 => 6 ≤ size
  | 3 => p.palette
  | _ => false

/-- The number of a frame that covers the whole picture. -/
def frame? (p : Preamble) (h : Header) (b : Bytes) : Option Nat :=
  let field (i : Nat) : Nat := number ((b.drop (4 * i)).take 4)
  match b.drop 24 with
  | [disposal, blending] =>
    if field 0 = (p.frame.map (· + 1)).getD 0 ∧ field 1 = h.width ∧ field 2 = h.height ∧
        field 3 = 0 ∧ field 4 = 0 ∧ disposal ≤ 2 ∧ blending ≤ 1 then some (field 0)
    else none
  | _ => none

/-- Keeps some more bytes. -/
def keep? (p : Preamble) (n : Nat) : Option Preamble :=
  if n ≤ p.free then some { p with free := p.free - n } else none

/-- Makes space for a chunk. -/
def makeSpace? (p : Preamble) (size : Nat) : Option Preamble :=
  let space := max p.space (2 ^ ((size - 1).log2 + 1))
  { p with space }.keep? (space - p.space)

/-- The size of a colour profile, which has a name and is compressed. -/
def profileSize? (b : Bytes) : Option Nat :=
  let name := b.takeWhile (· ≠ 0)
  match b.drop name.length with
  | 0 :: 0 :: data =>
    if name.isEmpty ∨ 79 < name.length then none else (Compressed.open? data).map Array.size
  | _ => none

/-- What is known after a chunk that is in order; nothing when the picture cannot be read because of
it. -/
def take? (p : Preamble) (h : Header) (c : Chunk) : Option Preamble :=
  if c.kind = kindOf "PLTE" then if p.palette then none else some { p with palette := true }
  else if c.isCritical then none
  else if c.kind = kindOf "fcTL" then
    (p.frame? h c.content).map fun n => { p with frame := some n }
  else if c.kind = kindOf "bKGD" then if h.indexed ∧ !p.palette then none else some p
  else if c.kind = kindOf "cICP" then
    match c.content with
    | [_, _, matrix, range] =>
      if p.codePoints ∨ p.palette then some p
      else if matrix = 0 ∧ range ≤ 1 then some { p with codePoints := true }
      else none
    | _ => some p
  else if c.kind = kindOf "tRNS" then
    some { p with transparent := p.transparent || p.takesTransparency h c.content.length }
  else if c.isText then p.keep? c.content.length
  else if c.kind = kindOf "iCCP" ∧ !p.profile then
    let p := { p with profile := true }
    some (((profileSize? c.content).bind p.keep?).getD p)
  else some p

/-- What is known after a chunk. One that is faulty may be passed over. -/
def extend? (p : Preamble) (h : Header) (c : Chunk) : Option Preamble :=
  if !c.isFitting then if c.isEssential then none else some p
  else
    match p.makeSpace? c.content.length with
    | none => none
    | some p => if c.sound then p.take? h c else if c.isCritical then none else some p

end Preamble

/-- What is known when picture data begins. -/
def preamble? (h : Header) (p : Preamble) (b : Bytes) : Option Preamble :=
  if b.length < 8 then none
  else if (b.drop 4).take 4 = kindOf "IDAT" then some p
  else
    match _h : chunk? b with
    | none => none
    | some (c, rest) =>
      match p.extend? h c with
      | none => none
      | some p => preamble? h p rest
termination_by b.length
decreasing_by exact length_chunk?_lt _h

/-- The width and height of a picture. -/
def size? (b : Bytes) : Option (Nat × Nat) := do
  if b.take 8 ≠ signature then none
  let (c, rest) ← chunk? (b.drop 8)
  if c.kind ≠ kindOf "IHDR" ∨ !c.sound then none
  let h ← Header.ofBytes? c.content
  let p ← preamble? h {} rest
  if h.rowSize p.transparent ≤ p.free then some (h.width, h.height) else none

end FloatFlattening.Png
