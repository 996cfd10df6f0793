/-!
Text as a list of characters. A position counts characters from the start, and a span is half
open; `byteOffset` and `position` pass between positions and offsets into the UTF-8 encoding.
-/

namespace FloatFlattening

abbrev Text := List Char

instance : Coe String Text where
  coe := String.toList

section

/-! Instances that are found first, whatever else is imported. What is said of the characters of a text is
decided on the text, not on all characters there are. -/

@[default_instance high]
instance (priority := 1100) natPow {α : Type} [NatPow α] : Pow α Nat := instPowNat

instance (priority := 1100) natZero : Zero Nat := Zero.ofOfNat0

instance (priority := 1100) Text.order : LE Text := @List.instLE Char Char.instLT

variable (t : Text) (ts : List Text) (c? : Option Char) (p : Char → Prop) [DecidablePred p]

instance (priority := 1100) Text.decidableLE : DecidableLE Text := @List.decidableLE Char _ Char.instLT _

instance (priority := 1100) Text.decidableMem : Decidable (t ∈ ts) := inferInstance

instance (priority := 1100) Text.decidableForall : Decidable (∀ c ∈ t, p c) := List.decidableBAll p t

instance (priority := 1100) Text.decidableExists : Decidable (∃ c ∈ t, p c) := List.decidableBEx p t

instance (priority := 1100) Text.decidableForall? : Decidable (∀ c ∈ c?, p c) := Option.decidableForallMem c?

instance (priority := 1100) Text.decidableExists? : Decidable (∃ c ∈ c?, p c) := Option.decidableExistsMem c?

end

structure Span where
  start : Nat
  stop : Nat
  deriving DecidableEq, Repr

namespace Span

def Covers (outer inner : Span) : Prop :=
  outer.start ≤ inner.start ∧ inner.stop ≤ outer.stop

instance (outer inner : Span) : Decidable (outer.Covers inner) :=
  inferInstanceAs (Decidable (_ ∧ _))

def Holds (s : Span) (pos : Nat) : Prop := s.start ≤ pos ∧ pos < s.stop

instance (s : Span) (pos : Nat) : Decidable (s.Holds pos) :=
  inferInstanceAs (Decidable (_ ∧ _))

theorem Covers.refl (s : Span) : s.Covers s := ⟨Nat.le_refl _, Nat.le_refl _⟩

theorem Covers.trans {a b c : Span} (h : a.Covers b) (k : b.Covers c) : a.Covers c :=
  ⟨Nat.le_trans h.1 k.1, Nat.le_trans k.2 h.2⟩

end Span

namespace Text

def ofNat (n : Nat) : Text := Nat.toDigits 10 n

def ofInt : Int → Text
  | .ofNat n => ofNat n
  | .negSucc n => '-' :: ofNat (n + 1)

def slice (t : Text) (s : Span) : Text := (t.take s.stop).drop s.start

@[simp] theorem length_slice (t : Text) (s : Span) :
    (slice t s).length = min s.stop t.length - s.start := by
  simp [slice]

/-- The text from `last` to `stop` with spans of it, which come in order, exchanged for other text. -/
def splice (t : Text) (stop : Nat) : (last : Nat) → List (Span × Text) → Text
  | last, [] => slice t ⟨last, stop⟩
  | last, (s, value) :: rest => slice t ⟨last, s.start⟩ ++ value ++ splice t stop s.stop rest

/-- The line of a position, the first line being 1; only a line feed ends a line. -/
def lineOf (t : Text) (pos : Nat) : Nat := (t.take pos).count '\n' + 1

theorem lineOf_mono (t : Text) {a b : Nat} (h : a ≤ b) : lineOf t a ≤ lineOf t b := by
  have := (List.take_sublist_take_left (l := t) h).count_le '\n'
  simpa [lineOf] using this

def byteSize (t : Text) : Nat := (t.map Char.utf8Size).sum

@[simp] theorem byteSize_append (s t : Text) : byteSize (s ++ t) = byteSize s + byteSize t := by
  simp [byteSize]

def byteOffset (t : Text) (pos : Nat) : Nat := byteSize (t.take pos)

/-- The position of the character that holds a byte; past the end, positions go on byte by byte. -/
def position : Text → Nat → Nat
  | [], byte => byte
  | c :: r, byte => if c.utf8Size ≤ byte then position r (byte - c.utf8Size) + 1 else 0

theorem position_byteOffset : ∀ (t : Text) (pos : Nat), pos ≤ t.length →
    position t (byteOffset t pos) = pos
  | [], 0, _ => rfl
  | c :: r, 0, _ => by
    have := c.utf8Size_pos
    simp [position, byteOffset, byteSize]
    omega
  | c :: r, pos + 1, h => by
    have ih := position_byteOffset r pos (by simpa using h)
    simpa [position, byteOffset, byteSize] using ih

/-- The position that begins at a byte; none inside a character and past the end. -/
def boundary? (t : Text) (byte : Nat) : Option Nat :=
  let pos := position t byte
  if byteOffset t pos = byte then some pos else none

def spanBytes (t : Text) (s : Span) : Span := ⟨byteOffset t s.start, byteOffset t s.stop⟩

def spanOfBytes (t : Text) (s : Span) : Span := ⟨position t s.start, position t s.stop⟩

end Text

end FloatFlattening
