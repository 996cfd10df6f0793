import FloatFlattening.Text.Utf8
import Mathlib.Data.List.Basic
/-!
The bytes of a text. Those of a character beyond ASCII are never taken for ASCII, and from any other byte it can
be told whether a character begins there.
-/

namespace FloatFlattening

/-- A byte that goes on with a character. -/
def Continues (x : UInt8) : Prop := 0x80 ≤ x ∧ x < 0xC0

instance : DecidablePred Continues := fun _ => inferInstanceAs (Decidable (_ ∧ _))

/-- An offset at which no character is cut. -/
def IsBoundary (b : Bytes) (i : Nat) : Prop := i ≤ b.length ∧ ∀ x ∈ b[i]?, ¬ Continues x

namespace Text

variable {t u : Text} {c : Char} {p q n i : Nat} {x : UInt8}

@[simp] theorem toBytes_cons (c : Char) (t : Text) : toBytes (c :: t) = String.utf8EncodeChar c ++ toBytes t :=
  List.flatMap_cons

@[simp] theorem toBytes_append (t u : Text) : toBytes (t ++ u) = toBytes t ++ toBytes u := List.flatMap_append

@[simp] theorem length_toBytes (t : Text) : (toBytes t).length = byteSize t := by
  simp [toBytes, byteSize, List.length_flatMap]

@[simp] theorem byteSize_cons (c : Char) (t : Text) : byteSize (c :: t) = c.utf8Size + byteSize t := by simp [byteSize]

theorem utf8Size_ascii (h : c.toNat < 128) : c.utf8Size = 1 :=
  Char.utf8Size_eq_one_iff.2 (UInt32.le_iff_toNat_le.2 (Nat.le_of_lt_succ h))

theorem encode_ascii (h : c.toNat < 128) : String.utf8EncodeChar c = [c.toUInt8] := by
  rw [String.utf8EncodeChar_eq_singleton (utf8Size_ascii h)]
  rfl

theorem toBytes_ascii (h : c.toNat < 128) (t : Text) : toBytes (c :: t) = c.toUInt8 :: toBytes t := by
  rw [toBytes_cons, encode_ascii h, List.singleton_append]

theorem continues_ofNat (n : Nat) : Continues (UInt8.ofNat (n % 64 + 128)) := by
  simp only [Continues, UInt8.le_iff_toNat_le, UInt8.lt_iff_toNat_lt, UInt8.toNat_ofNat', UInt8.reduceToNat]
  omega

/-- A character is a byte below 128, or begins with one from 192 on and goes on with those between. -/
theorem encode_cases (c : Char) :
    c.toNat < 128 ∧ String.utf8EncodeChar c = [c.toUInt8] ∨
      128 ≤ c.toNat ∧ ∃ x w, String.utf8EncodeChar c = x :: w ∧ 0xC0 ≤ x ∧ ∀ y ∈ w, Continues y := by
  have lead {n : Nat} (h : 192 ≤ n) (h' : n < 256) : (0xC0 : UInt8) ≤ UInt8.ofNat n := by
    simp only [UInt8.le_iff_toNat_le, UInt8.toNat_ofNat', UInt8.reduceToNat]
    omega
  rcases Nat.lt_or_ge c.toNat 128 with ascii | wide
  · exact .inl ⟨ascii, encode_ascii ascii⟩
  · refine .inr ⟨wide, ?_⟩
    have last : c.val.toNat < 0x110000 := by
      rcases c.valid with h | h
      · exact Nat.lt_trans h (by decide)
      · exact h.2
    rw [String.utf8EncodeChar]
    have not_one : ¬ c.val.toNat ≤ 127 := by
      change 128 ≤ c.val.toNat at wide
      omega
    rw [if_neg not_one]
    split_ifs
    all_goals
      refine ⟨_, _, rfl, lead (by omega) (by omega), ?_⟩
      simp only [List.forall_mem_cons, List.not_mem_nil, false_imp_iff, implies_true, and_true, continues_ofNat]

theorem exists_encode (c : Char) : ∃ x w, String.utf8EncodeChar c = x :: w ∧ ¬ Continues x ∧ ∀ y ∈ w, Continues y := by
  rcases encode_cases c with ⟨ascii, one⟩ | ⟨-, x, w, more, lead, rest⟩
  · refine ⟨_, [], one, fun continues => ?_, by simp⟩
    have le : 128 ≤ c.val.toNat % 256 := UInt8.le_iff_toNat_le.1 continues.1
    change c.val.toNat < 128 at ascii
    omega
  · exact ⟨x, w, more, fun continues => absurd (UInt8.lt_of_lt_of_le continues.2 lead) (UInt8.lt_irrefl _), rest⟩

theorem ne_of_continues {d : Char} (hd : d.toNat < 128) (hx : Continues x) : x ≠ d.toUInt8 := by
  rintro rfl
  have le : 128 ≤ d.val.toNat % 256 := UInt8.le_iff_toNat_le.1 hx.1
  change d.val.toNat < 128 at hd
  omega

/-- No byte of a character is taken for another character, which is in ASCII. -/
theorem ne_of_mem_encode {d : Char} (hd : d.toNat < 128) (ne : c ≠ d) (hx : x ∈ String.utf8EncodeChar c) :
    x ≠ d.toUInt8 := by
  rintro rfl
  change d.val.toNat < 128 at hd
  rcases encode_cases c with ⟨ascii, one⟩ | ⟨-, y, w, more, lead, rest⟩
  · rw [one, List.mem_singleton] at hx
    have same : d.val.toNat % 256 = c.val.toNat % 256 := congrArg UInt8.toNat hx
    change c.val.toNat < 128 at ascii
    exact ne (Char.ext (UInt32.toNat_inj.1 (by omega)))
  · rw [more, List.mem_cons] at hx
    rcases hx with rfl | hx
    · have le : 192 ≤ d.val.toNat % 256 := UInt8.le_iff_toNat_le.1 lead
      omega
    · exact ne_of_continues hd (rest _ hx) rfl

/-! Offsets of positions. -/

theorem byteOffset_cons (c : Char) (t : Text) (p : Nat) :
    byteOffset (c :: t) (p + 1) = c.utf8Size + byteOffset t p := by
  rw [byteOffset, List.take_succ_cons, byteSize_cons, byteOffset]

theorem byteOffset_ascii (h : c.toNat < 128) (t : Text) (p : Nat) :
    byteOffset (c :: t) (p + 1) = byteOffset t p + 1 := by
  rw [byteOffset_cons, utf8Size_ascii h, Nat.add_comm]

theorem byteOffset_add (t : Text) (p n : Nat) : byteOffset t (p + n) = byteOffset t p + byteOffset (t.drop p) n := by
  rw [byteOffset, List.take_add, byteSize_append, byteOffset, byteOffset]

/-- The offset past an ASCII character. -/
theorem byteOffset_succ (hc : t[p]? = some c) (h : c.toNat < 128) : byteOffset t (p + 1) = byteOffset t p + 1 := by
  obtain ⟨hp, rfl⟩ := List.getElem?_eq_some_iff.1 hc
  rw [byteOffset_add, List.drop_eq_getElem_cons hp, byteOffset_ascii h]
  rfl

theorem byteOffset_mono (t : Text) (h : p ≤ q) : byteOffset t p ≤ byteOffset t q := by
  obtain ⟨n, rfl⟩ := Nat.exists_eq_add_of_le h
  rw [byteOffset_add]
  exact Nat.le_add_right _ _

theorem byteOffset_lt (h : p < q) (hp : p < t.length) : byteOffset t p < byteOffset t q := by
  have step : byteOffset t p < byteOffset t (p + 1) := by
    have := (t[p]).utf8Size_pos
    rw [byteOffset_add, List.drop_eq_getElem_cons hp, byteOffset_cons]
    omega
  exact Nat.lt_of_lt_of_le step (byteOffset_mono t h)

theorem byteOffset_length (t : Text) : byteOffset t t.length = byteSize t := by rw [byteOffset, List.take_length]

theorem drop_toBytes (t : Text) (p : Nat) : (toBytes t).drop (byteOffset t p) = toBytes (t.drop p) := by
  have split : toBytes t = toBytes (t.take p) ++ toBytes (t.drop p) := by rw [← toBytes_append, List.take_append_drop]
  rw [split, byteOffset, ← length_toBytes, List.drop_left]

theorem boundary?_byteOffset (h : p ≤ t.length) : boundary? t (byteOffset t p) = some p := by
  simp only [boundary?, position_byteOffset t p h, if_true]

/-- No character is cut at an offset just if one begins there, or the text ends. -/
theorem isBoundary_iff : IsBoundary (toBytes t) i ↔ ∃ p ≤ t.length, byteOffset t p = i := by
  induction t generalizing i with
  | nil =>
    constructor
    · intro h
      exact ⟨0, Nat.le_refl _, (Nat.le_zero.1 h.1).symm⟩
    · rintro ⟨p, hp, rfl⟩
      obtain rfl := Nat.le_zero.1 hp
      exact ⟨Nat.le_refl _, by simp [byteOffset, toBytes]⟩
  | cons c t ih =>
    obtain ⟨x, w, encode, first, others⟩ := exists_encode c
    have size : w.length + 1 = c.utf8Size := by rw [← String.length_utf8EncodeChar, encode, List.length_cons]
    have later (j : Nat) : IsBoundary (toBytes (c :: t)) (c.utf8Size + j) ↔ IsBoundary (toBytes t) j := by
      rw [IsBoundary, IsBoundary, toBytes_cons, List.length_append, String.length_utf8EncodeChar,
        List.getElem?_append_right (by rw [String.length_utf8EncodeChar]; omega), String.length_utf8EncodeChar,
        Nat.add_sub_cancel_left, Nat.add_le_add_iff_left]
    constructor
    · intro h
      rcases Nat.lt_or_ge i c.utf8Size with inside | past
      · cases i with
        | zero => exact ⟨0, Nat.zero_le _, rfl⟩
        | succ i =>
          have mem : i < w.length := by omega
          refine absurd (others _ (List.getElem_mem mem)) (h.2 _ ?_)
          rw [toBytes_cons, encode, List.cons_append, List.getElem?_cons_succ, List.getElem?_append_left mem,
            List.getElem?_eq_getElem mem]
          rfl
      · obtain ⟨j, rfl⟩ := Nat.exists_eq_add_of_le past
        obtain ⟨p, hp, rfl⟩ := ih.1 ((later j).1 h)
        exact ⟨p + 1, Nat.succ_le_succ hp, byteOffset_cons c t p⟩
    · rintro ⟨p, hp, rfl⟩
      cases p with
      | zero =>
        refine ⟨Nat.zero_le _, fun y hy => ?_⟩
        rw [byteOffset, toBytes_cons, encode] at hy
        obtain rfl : x = y := by simpa [byteSize] using hy
        exact first
      | succ p =>
        rw [byteOffset_cons, later]
        exact ih.2 ⟨p, Nat.le_of_succ_le_succ hp, rfl⟩

end Text

end FloatFlattening
