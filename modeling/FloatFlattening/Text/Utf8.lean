import FloatFlattening.Text.Basic
/-!
Text as bytes in UTF-8. Reading never fails: bytes that cannot be read stand for the replacement
character U+FFFD, one for each longest beginning of a sequence that goes wrong.
-/

namespace FloatFlattening

abbrev Bytes := List UInt8

namespace Text

def toBytes (t : Text) : Bytes := t.flatMap String.utf8EncodeChar

/-- What may follow the first byte of a longer sequence. -/
structure Continuation where
  /-- The bits that the first byte gives. -/
  bits : Nat
  count : Nat
  /-- The range of the byte that comes next. -/
  low : UInt8 := 0x80
  high : UInt8 := 0xBF

/-- Overlong sequences, surrogates and numbers past the last character have no first or second
byte. -/
def Continuation.ofLead? (lead : UInt8) : Option Continuation :=
  if 0xC2 ≤ lead ∧ lead ≤ 0xDF then some { bits := lead.toNat - 0xC0, count := 1 }
  else if lead = 0xE0 then some { bits := 0, count := 2, low := 0xA0 }
  else if lead = 0xED then some { bits := 0xD, count := 2, high := 0x9F }
  else if 0xE1 ≤ lead ∧ lead ≤ 0xEF then some { bits := lead.toNat - 0xE0, count := 2 }
  else if lead = 0xF0 then some { bits := 0, count := 3, low := 0x90 }
  else if 0xF1 ≤ lead ∧ lead ≤ 0xF3 then some { bits := lead.toNat - 0xF0, count := 3 }
  else if lead = 0xF4 then some { bits := 4, count := 3, high := 0x8F }
  else none

def replacementChar : Char := '\uFFFD'

/-- The character of a sequence and the number of bytes it takes after the first. -/
def finish : (bits count : Nat) → (low high : UInt8) → Bytes → Char × Nat
  | bits, 0, _, _, _ => (Char.ofNat bits, 0)
  | _, _ + 1, _, _, [] => (replacementChar, 0)
  | bits, count + 1, low, high, b :: r =>
    if low ≤ b ∧ b ≤ high then
      let (c, n) := finish (bits * 64 + (b.toNat - 0x80)) count 0x80 0xBF r
      (c, n + 1)
    else (replacementChar, 0)

def ofBytes : Bytes → Text
  | [] => []
  | b :: r =>
    if b < 0x80 then Char.ofNat b.toNat :: ofBytes r
    else
      match Continuation.ofLead? b with
      | none => replacementChar :: ofBytes r
      | some k =>
        let (c, n) := finish k.bits k.count k.low k.high r
        c :: ofBytes (r.drop n)
termination_by r => r.length
decreasing_by all_goals simp only [List.length_drop, List.length_cons]; omega

/-- The text of bytes that are the UTF-8 of one. -/
def ofBytes? (b : Bytes) : Option Text :=
  let t := ofBytes b
  if toBytes t = b then some t else none

end Text

end FloatFlattening
