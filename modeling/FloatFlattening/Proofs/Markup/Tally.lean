import Mathlib.Order.Bounds.Basic
import FloatFlattening.Proofs.Bytes.Arguments
import FloatFlattening.Proofs.Markup.Balanced
/-!
Groups by counting. A brace pairs with the first one that makes the braces even, and a text may stand in braces
when its braces are even and no part of it from the start closes more than it opens.
-/

namespace FloatFlattening

namespace Text

/-- A text without its backslashes and the characters they take with them. -/
def unescaped : Text → Text
  | [] => []
  | ['\\'] => []
  | '\\' :: _ :: t => unescaped t
  | c :: t => c :: unescaped t

/-- How often a character stands unescaped in a text. -/
def tally (b : Char) (t : Text) : Nat := (unescaped t).count b

/-- A text whose unescaped braces pair. -/
structure Balanced (t : Text) : Prop where
  le (n : Nat) : tally '}' (t.take n) ≤ tally '{' (t.take n)
  eq : tally '{' t = tally '}' t

/-- Where a text closes the groups open before it, with `depth` further ones inside the outermost: its unescaped
braces make up for the open ones there. -/
def ends (depth : Nat) (t : Text) : Set Nat :=
  {n | n < t.length ∧ tally '}' (t.take (n + 1)) = depth + 1 + tally '{' (t.take (n + 1))}

/-- Where, past a position, the unescaped braces from that position on are even. -/
def evens (t : Text) (i : Nat) : Set Nat :=
  {c | i < c ∧ c < t.length ∧ tally '{' (t.slice ⟨i, c + 1⟩) = tally '}' (t.slice ⟨i, c + 1⟩)}

variable {b c : Char} {s t : Text}

@[simp] theorem tally_nil (b : Char) : tally b [] = 0 := rfl

@[simp] theorem tally_lone (b : Char) : tally b ['\\'] = 0 := rfl

@[simp] theorem tally_pair (b c : Char) (t : Text) : tally b ('\\' :: c :: t) = tally b t := rfl

theorem unescaped_cons (h : c ≠ '\\') (t : Text) : unescaped (c :: t) = c :: unescaped t := by
  rw [unescaped] <;> simp_all

theorem tally_cons (h : c ≠ '\\') (t : Text) : tally b (c :: t) = tally b t + if c = b then 1 else 0 := by
  simp [tally, unescaped_cons h, List.count_cons]

theorem tally_append (free : escapes s = false) (t : Text) : tally b (s ++ t) = tally b s + tally b t := by
  fun_induction unescaped s with
  | case1 => simp
  | case2 => simp [escapes, escapeStep] at free
  | case3 c s ih => simpa using ih (by simpa using free)
  | case4 c s lone pair ih =>
    have h := ne_backslash lone pair
    rw [escapes_cons h] at free
    rw [List.cons_append, tally_cons h, tally_cons h, ih free, Nat.add_right_comm]

/-- What one more character adds. -/
theorem tally_concat (hb : b ≠ '\\') (t : Text) (c : Char) :
    tally b (t ++ [c]) = tally b t + if escapes t = false ∧ c = b then 1 else 0 := by
  cases escaped : escapes t with
  | false =>
    rw [tally_append escaped]
    by_cases hc : c = '\\'
    · subst hc
      simp [hb.symm]
    · simp [tally_cons hc]
  | true =>
    obtain ⟨s, rfl, free⟩ := exists_of_escapes escaped
    simp [tally_append free]

theorem tally_take_succ (hb : b ≠ '\\') (t : Text) (n : Nat) :
    tally b (t.take n) ≤ tally b (t.take (n + 1)) ∧ tally b (t.take (n + 1)) ≤ tally b (t.take n) + 1 := by
  rw [List.take_add_one]
  cases t[n]? with
  | none => simp
  | some c =>
    rw [Option.toList_some, tally_concat hb]
    split <;> omega

end Text

open Text

/-- The least member of a set, if it has members. -/
def Least? (S : Set Nat) : Option Nat → Prop
  | none => ∀ n, n ∉ S
  | some n => IsLeast S n

namespace Least?

variable {S T : Set Nat} {n? : Option Nat} {k : Nat}

theorem eq_some_iff (h : Least? S n?) (n : Nat) : n? = some n ↔ IsLeast S n := by
  cases n? with
  | none => simpa using fun least : IsLeast S n => h n least.1
  | some m => exact ⟨fun eq => Option.some.inj eq ▸ h, fun least => congrArg some (IsLeast.unique h least)⟩

theorem eq_none_iff (h : Least? S n?) : n? = none ↔ ∀ n, n ∉ S := by
  cases n? with
  | none => exact iff_of_true rfl h
  | some n => exact iff_of_false nofun fun none => none n h.1

/-- The least member of a set that lies further on. -/
theorem shift (h : Least? S n?) (before : ∀ n < k, n ∉ T) (past : ∀ n, n + k ∈ T ↔ n ∈ S) :
    Least? T (n?.map (· + k)) := by
  have shifted {n : Nat} (hn : n ∈ T) : ∃ m ∈ S, n = m + k := by
    obtain ⟨m, rfl⟩ := Nat.exists_eq_add_of_le' (Nat.not_lt.1 fun lt => before n lt hn)
    exact ⟨m, (past m).1 hn, rfl⟩
  cases n? with
  | none =>
    intro n hn
    obtain ⟨m, hm, -⟩ := shifted hn
    exact h m hm
  | some n =>
    refine ⟨(past n).2 h.1, fun m hm => ?_⟩
    obtain ⟨m, inner, rfl⟩ := shifted hm
    exact Nat.add_le_add_right (h.2 inner) k

end Least?

variable {t : Text} {depth i c o : Nat}

/-- The length of a group counts the characters before the first brace that makes up for all that are open. -/
theorem least?_braceLength? (depth : Nat) (t : Text) : Least? (ends depth t) (braceLength? depth t) := by
  induction depth, t using braceLength?_induction with
  | nil depth => exact fun n hn => Nat.not_lt_zero n hn.1
  | lone depth =>
    rintro n ⟨lt, eq⟩
    obtain rfl : n = 0 := by simpa using lt
    simp at eq
  | pair depth c t ih =>
    refine ih.shift (fun n hn => ?_) fun n => ?_
    · rcases (by omega : n = 0 ∨ n = 1) with rfl | rfl <;> simp [ends]
    · simp [ends]
  | opening depth t ih =>
    refine ih.shift (fun n hn => ?_) fun n => ?_
    · obtain rfl : n = 0 := by omega
      simp [ends, tally_cons]
    · simp [ends, tally_cons]
      omega
  | last t => exact ⟨by simp [ends, tally_cons], fun n _ => Nat.zero_le n⟩
  | closing depth t ih =>
    refine ih.shift (fun n hn => ?_) fun n => ?_
    · obtain rfl : n = 0 := by omega
      simp [ends, tally_cons]
    · simp [ends, tally_cons]
      omega
  | other depth c t h₁ h₂ h₃ ih =>
    rw [braceLength?_other h₁ h₂ h₃]
    refine ih.shift (fun n hn => ?_) fun n => ?_
    · obtain rfl : n = 0 := by omega
      simp [ends, tally_cons h₁, h₂, h₃]
    · simp [ends, tally_cons h₁, h₂, h₃]

/-- A text may stand in braces when its braces pair and no backslash at its end takes the next character. -/
theorem braced_iff : Braced t ↔ Balanced t ∧ escapes t = false := by
  have close : tally '}' (t ++ ['}']) = tally '}' t + if escapes t then 0 else 1 := by
    rw [tally_concat (by decide)]
    cases escapes t <;> rfl
  have open_ : tally '{' (t ++ ['}']) = tally '{' t := by simp [tally_concat]
  have least := least?_braceLength? 0 (t ++ ['}'])
  have inner {n : Nat} (lt : n < t.length) : n ∈ ends 0 (t ++ ['}']) ↔
      tally '}' (t.take (n + 1)) = 0 + 1 + tally '{' (t.take (n + 1)) := by
    have whole : n < (t ++ ['}']).length := by
      rw [List.length_append]
      omega
    rw [ends, Set.mem_ofPred_eq, and_iff_right whole, List.take_append_of_le_length lt]
  constructor
  · intro h
    have here := (least.eq_some_iff t.length).1 (braceLength?_eq_some_iff.2 ⟨t, [], h, rfl, rfl⟩)
    have even := here.1.2
    rw [List.take_of_length_le (by simp), close, open_, h.escapes] at even
    refine ⟨⟨fun n => ?_, by simpa [Nat.add_comm] using even.symm⟩, h.escapes⟩
    induction n with
    | zero => simp
    | succ n ih =>
      rcases Nat.lt_or_ge n t.length with lt | ge
      · have odd : n ∉ ends 0 (t ++ ['}']) := fun hn => Nat.not_le.2 lt (here.2 hn)
        rw [inner lt] at odd
        have closing := tally_take_succ (b := '}') (by decide) t n
        have opening := tally_take_succ (b := '{') (by decide) t n
        omega
      · rwa [List.take_of_length_le (Nat.le_succ_of_le ge), ← List.take_of_length_le ge]
  · rintro ⟨h, free⟩
    have here : IsLeast (ends 0 (t ++ ['}'])) t.length := by
      refine ⟨⟨by simp, ?_⟩, fun n hn => Nat.not_lt.1 fun lt => ?_⟩
      · simp [List.take_of_length_le, close, open_, free, h.eq, Nat.add_comm]
      · have := h.le (n + 1)
        have := (inner lt).1 hn
        omega
    obtain ⟨s, r, braced, eq, length⟩ := braceLength?_eq_some_iff.1 ((least.eq_some_iff _).2 here)
    rwa [← (List.append_inj eq length.symm).1] at braced

/-- What a group is made of, up to some character past its opening brace. -/
theorem slice_opening (h : t[i]? = some '{') (n : Nat) :
    t.slice ⟨i, n + (i + 1)⟩ = '{' :: (t.drop (i + 1)).take n := by
  rw [Text.slice, List.drop_take, drop_eq_cons h, show n + (i + 1) - i = n + 1 by omega, List.take_succ_cons]

theorem least?_closingBrace? (h : t[i]? = some '{') : Least? (evens t i) (closingBrace? t i) := by
  refine (least?_braceLength? 0 (t.drop (i + 1))).shift (fun n hn mem => Nat.not_le.2 hn mem.1) fun n => ?_
  have slice : t.slice ⟨i, n + (i + 1) + 1⟩ = '{' :: (t.drop (i + 1)).take (n + 1) := by
    rw [Nat.add_right_comm n]
    exact slice_opening h (n + 1)
  simp [evens, ends, slice, tally_cons]
  omega

/-- The closing brace of a group is the first that makes the braces from its opening one on even; a group that
begins inside another ends before it; and the walk over the bytes finds the same brace. -/
theorem closingBrace?_exact (h : t[i]? = some '{') :
    (∀ c, closingBrace? t i = some c ↔ IsLeast (evens t i) c) ∧
      (closingBrace? t i = none ↔ ∀ c, c ∉ evens t i) ∧
      (∀ c o, closingBrace? t i = some c → i < o → o < c → t[o]? = some '{' → escapes (t.slice ⟨i, o⟩) = false →
        ∃ c' < c, closingBrace? t o = some c') ∧
      Bytewise.closingBrace? 0 (t.byteOffset i) (t.toBytes.drop (t.byteOffset i)) =
        .ok ((closingBrace? t i).map t.byteOffset) := by
  refine ⟨(least?_closingBrace? h).eq_some_iff, (least?_closingBrace? h).eq_none_iff, ?_, ?_⟩
  · intro c o closes lt inside open_ free
    obtain ⟨n, length, rfl⟩ := Option.map_eq_some_iff.1 closes
    obtain ⟨q, rfl⟩ : ∃ q, o = q + (i + 1) := Nat.exists_eq_add_of_le' lt
    rw [slice_opening h, escapes_cons (by decide)] at free
    obtain ⟨m, lt', nested⟩ := braceLength?_nested length (Nat.lt_of_add_lt_add_right inside) free
      (by rwa [List.getElem?_drop, Nat.add_comm])
    rw [List.drop_drop, show i + 1 + (q + 1) = q + (i + 1) + 1 by omega] at nested
    exact ⟨m + (q + (i + 1) + 1), by omega, by rw [closingBrace?, nested]; rfl⟩
  · rw [Bytewise.closingBrace?_byteOffset (drop_eq_cons h), closingBrace?, Option.map_map]
    congr 2
    funext n
    rw [Function.comp, Nat.add_comm]

theorem closingBrace?_past_escaped :
    let t : Text := "\x7b\\\x7d\x7bx\x7d\x7d"
    t[0]? = some '{' ∧ IsLeast (evens t 0) 6 ∧ (∃ c < 6, closingBrace? t 3 = some c) ∧
      Bytewise.closingBrace? 0 (t.byteOffset 0) (t.toBytes.drop (t.byteOffset 0)) = .ok (some 6) := by
  intro t
  have opens : t[0]? = some '{' := by decide +kernel
  have closes : closingBrace? t 0 = some 6 := by decide +kernel
  obtain ⟨least, -, nested, bytes⟩ := closingBrace?_exact opens
  rw [closes] at bytes
  exact ⟨opens, (least 6).1 closes, nested 6 3 closes (by decide) (by decide) (by decide +kernel) (by decide +kernel),
    bytes⟩

end FloatFlattening
