import FloatFlattening.Text.Utf8
/-!
The chunks of a PNG file: each has a length, a kind of four bytes, its content and a check of the
kind and the content.
-/

namespace FloatFlattening.Png

/-- A number with its most significant byte first. -/
def number (b : Bytes) : Nat := b.foldl (fun n x => n * 256 + x.toNat) 0

def crcStep (crc : UInt32) : UInt32 :=
  if crc &&& 1 = 1 then (crc >>> 1) ^^^ 0xEDB88320 else crc >>> 1

/-- The cyclic redundancy check of a chunk. -/
def crc (b : Bytes) : UInt32 :=
  let step (crc : UInt32) (x : UInt8) : UInt32 := Nat.repeat crcStep 8 (crc ^^^ x.toUInt32)
  b.foldl step 0xFFFFFFFF ^^^ 0xFFFFFFFF

structure Chunk where
  kind : Bytes
  content : Bytes
  /-- Whether its check holds. -/
  sound : Bool

def kindOf (name : String) : Bytes := Text.toBytes name

/-- A chunk whose kind begins with a capital letter cannot be passed over. -/
def Chunk.isCritical (c : Chunk) : Bool := c.kind.head?.any fun b => b &&& 0x20 = 0

/-- The least and the greatest sizes of the chunks that have a limited one. -/
def sizes : List (Bytes × Nat × Nat) := [
  (kindOf "IHDR", 13, 13), (kindOf "PLTE", 3, 768), (kindOf "IEND", 0, 0), (kindOf "sBIT", 1, 4),
  (kindOf "tRNS", 1, 256), (kindOf "pHYs", 9, 9), (kindOf "gAMA", 4, 4), (kindOf "acTL", 8, 8),
  (kindOf "fcTL", 26, 26), (kindOf "cHRM", 32, 32), (kindOf "sRGB", 1, 1), (kindOf "cICP", 4, 4),
  (kindOf "mDCV", 24, 24), (kindOf "cLLI", 8, 8), (kindOf "bKGD", 1, 6)]

def Chunk.isText (c : Chunk) : Bool := (["tEXt", "zTXt", "iTXt"].map kindOf).contains c.kind

/-- Whether a chunk is of a known kind and of a size that it can have. -/
def Chunk.isFitting (c : Chunk) : Bool :=
  match sizes.lookup c.kind with
  | some (least, most) => least ≤ c.content.length && c.content.length ≤ most
  | none => c.isText || c.kind = kindOf "eXIf" || c.kind = kindOf "iCCP"

/-- Whether a chunk cannot be passed over if it does not fit: it is critical, or about a frame. -/
def Chunk.isEssential (c : Chunk) : Bool :=
  c.isCritical || c.kind = kindOf "fcTL" || c.kind = kindOf "fdAT"

/-- The chunk at the beginning and what follows it. -/
def chunk? (b : Bytes) : Option (Chunk × Bytes) :=
  let size := number (b.take 4)
  let rest := b.drop 4
  if rest.length < size + 8 then none
  else
    let body := rest.take (size + 4)
    some (⟨body.take 4, body.drop 4, (crc body).toNat = number ((rest.drop (size + 4)).take 4)⟩,
      rest.drop (size + 8))

theorem length_chunk?_lt {b rest : Bytes} {c : Chunk} (h : chunk? b = some (c, rest)) :
    rest.length < b.length := by
  simp only [chunk?] at h
  split at h
  · simp at h
  · rename_i hsize
    obtain ⟨-, rfl⟩ := Prod.mk.inj (Option.some.inj h)
    simp only [List.length_drop] at hsize ⊢
    omega

end FloatFlattening.Png
