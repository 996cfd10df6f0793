import FloatFlattening.Text.Blank
import Mathlib.Data.List.Basic
/-!
Slices of a text that meet, and texts without blanks at their ends.
-/

namespace FloatFlattening.Text

theorem slice_append (t : Text) {a b c : Nat} (hab : a ≤ b) (hbc : b ≤ c) (hc : c ≤ t.length) :
    t.slice ⟨a, b⟩ ++ t.slice ⟨b, c⟩ = t.slice ⟨a, c⟩ := by
  have cut : (t.take c).take b = t.take b := by rw [List.take_take, Nat.min_eq_left hbc]
  rw [slice, slice, slice, ← cut, ← List.drop_append_of_le_length (by simp; omega),
    List.take_append_drop]

theorem slice_eq_take (t : Text) (a n : Nat) : t.slice ⟨a, a + n⟩ = (t.drop a).take n := by
  rw [slice, List.drop_take, Nat.add_sub_cancel_left]

theorem slice_eq_drop (t : Text) (a : Nat) : t.slice ⟨a, t.length⟩ = t.drop a := by
  rw [slice, List.take_length]

/-- Three parts of a text from a place on. -/
theorem slices_of_drop {t x y z : Text} {a : Nat} (h : t.drop a = x ++ (y ++ z)) :
    t.slice ⟨a, a + x.length⟩ = x ∧ t.slice ⟨a + x.length, a + x.length + y.length⟩ = y ∧
      t.drop (a + x.length + y.length) = z := by
  have past : t.drop (a + x.length) = y ++ z := by rw [← List.drop_drop, h, List.drop_left]
  refine ⟨?_, ?_, ?_⟩
  · rw [slice_eq_take, h, List.take_left]
  · rw [slice_eq_take, past, List.take_left]
  · rw [← List.drop_drop, past, List.drop_left]

theorem slice_self (t : Text) : t.slice ⟨0, t.length⟩ = t := by
  rw [slice_eq_drop, List.drop_zero]

theorem isBlank_of_isDigit {c : Char} (h : c.isDigit) : isBlank c = false := by
  have range : 48 ≤ c.toNat ∧ c.toNat ≤ 57 := by
    simp only [Char.isDigit, Bool.and_eq_true, decide_eq_true_eq] at h
    exact ⟨h.1, h.2⟩
  have ne : c ≠ ' ' := by
    rintro rfl
    exact absurd range.1 (by decide)
  simp only [isBlank, ne, decide_false, Bool.or_false, Bool.or_eq_false_iff, Bool.and_eq_false_iff,
    decide_eq_false_iff_not]
  omega

theorem dropWhile_isBlank {t : Text} (first : ∀ c ∈ t.head?, isBlank c = false) :
    t.dropWhile isBlank = t := by
  cases t with
  | nil => rfl
  | cons c t => rw [List.dropWhile_cons_of_neg (by simp [first c rfl])]

theorem trim_eq_self {t : Text} (first : ∀ c ∈ t.head?, isBlank c = false)
    (last : ∀ c ∈ t.getLast?, isBlank c = false) : trim t = t := by
  rw [trim, trimStart, dropWhile_isBlank first, trimEnd, dropWhile_isBlank, List.reverse_reverse]
  rwa [List.head?_reverse]

theorem trim_trim (t : Text) : trim (trim t) = trim t := by
  refine trim_eq_self (fun c hc => ?_) fun c hc => ?_
  · obtain ⟨u, hu⟩ := trimEnd_isPrefix (trimStart t)
    have head := List.head?_dropWhile_not isBlank t
    rw [← trimStart, ← hu, List.head?_append_of_ne_nil _ (by rintro e; simp [trim, e] at hc)] at head
    rw [show (trimEnd (trimStart t)).head? = some c from hc] at head
    exact head
  · have last := List.head?_dropWhile_not isBlank (trimStart t).reverse
    rw [trim, trimEnd, List.getLast?_reverse] at hc
    rw [Option.mem_def.1 hc] at last
    exact last

end FloatFlattening.Text
