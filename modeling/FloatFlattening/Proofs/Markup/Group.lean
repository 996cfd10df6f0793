import FloatFlattening.Markup.Group
import FloatFlattening.Proofs.Markup.Escape
/-!
Groups inside a longer text. What follows a group does not change it, it ends in a closing brace
that no backslash escapes, and a brace group that begins inside it ends before it does.
-/

namespace FloatFlattening

/-- Induction on a text as a brace group reads it. -/
@[elab_as_elim]
theorem braceLength?_induction {motive : Nat → Text → Prop}
    (nil : ∀ depth, motive depth []) (lone : ∀ depth, motive depth ['\\'])
    (pair : ∀ depth c t, motive depth t → motive depth ('\\' :: c :: t))
    (opening : ∀ depth t, motive (depth + 1) t → motive depth ('{' :: t))
    (last : ∀ t, motive 0 ('}' :: t))
    (closing : ∀ depth t, motive depth t → motive (depth + 1) ('}' :: t))
    (other : ∀ depth c t, c ≠ '\\' → c ≠ '{' → c ≠ '}' → motive depth t → motive depth (c :: t))
    (depth : Nat) (t : Text) : motive depth t := by
  induction depth, t using braceLength?.induct with
  | case1 depth => exact nil depth
  | case2 depth => exact lone depth
  | case3 depth c t ih => exact pair depth c t ih
  | case4 depth t ih => exact opening depth t ih
  | case5 t => exact last t
  | case6 depth t ih => exact closing depth t ih
  | case7 depth c t h₁ h₂ h₃ h₄ h₅ ih =>
    refine other depth c t ?_ h₃ ?_ ih
    · rintro rfl
      cases t with
      | nil => exact h₁ rfl rfl
      | cons d t => exact h₂ d t rfl rfl
    · rintro rfl
      cases depth with
      | zero => exact h₄ rfl rfl
      | succ depth => exact h₅ depth rfl rfl

theorem braceLength?_other {c : Char} (h₁ : c ≠ '\\') (h₂ : c ≠ '{') (h₃ : c ≠ '}') (depth : Nat)
    (t : Text) : braceLength? depth (c :: t) = (braceLength? depth t).map (· + 1) := by
  rw [braceLength?.eq_7] <;> simp_all

theorem braceLength?_append {depth n : Nat} {s : Text} (h : braceLength? depth s = some n)
    (t : Text) : braceLength? depth (s ++ t) = some n := by
  induction depth, s using braceLength?_induction generalizing n with
  | nil | lone => simp [braceLength?] at h
  | pair depth c s ih | opening depth s ih | closing depth s ih =>
    simp only [braceLength?, Option.map_eq_some_iff] at h
    obtain ⟨m, hm, rfl⟩ := h
    simp [braceLength?, ih hm]
  | last s => simpa [braceLength?] using h
  | other depth c s h₁ h₂ h₃ ih =>
    simp only [braceLength?_other h₁ h₂ h₃, Option.map_eq_some_iff] at h
    obtain ⟨m, hm, rfl⟩ := h
    simp [braceLength?_other h₁ h₂ h₃, ih hm]

theorem getElem?_braceLength? {depth n : Nat} {t : Text} (h : braceLength? depth t = some n) :
    t[n]? = some '}' := by
  induction depth, t using braceLength?_induction generalizing n with
  | nil | lone => simp [braceLength?] at h
  | pair depth c t ih | opening depth t ih | closing depth t ih =>
    simp only [braceLength?, Option.map_eq_some_iff] at h
    obtain ⟨m, hm, rfl⟩ := h
    simpa using ih hm
  | last t =>
    obtain rfl : 0 = n := by simpa [braceLength?] using h
    rfl
  | other depth c t h₁ h₂ h₃ ih =>
    simp only [braceLength?_other h₁ h₂ h₃, Option.map_eq_some_iff] at h
    obtain ⟨m, hm, rfl⟩ := h
    simpa using ih hm

theorem escapes_braceLength? {depth n : Nat} {t : Text} (h : braceLength? depth t = some n) :
    Text.escapes (t.take n) = false := by
  induction depth, t using braceLength?_induction generalizing n with
  | nil | lone => simp [braceLength?] at h
  | pair depth c t ih =>
    simp only [braceLength?, Option.map_eq_some_iff] at h
    obtain ⟨m, hm, rfl⟩ := h
    simpa using ih hm
  | opening depth t ih | closing depth t ih =>
    simp only [braceLength?, Option.map_eq_some_iff] at h
    obtain ⟨m, hm, rfl⟩ := h
    rw [List.take_succ_cons, Text.escapes_cons (by decide), ih hm]
  | last t =>
    obtain rfl : 0 = n := by simpa [braceLength?] using h
    rfl
  | other depth c t h₁ h₂ h₃ ih =>
    simp only [braceLength?_other h₁ h₂ h₃, Option.map_eq_some_iff] at h
    obtain ⟨m, hm, rfl⟩ := h
    rw [List.take_succ_cons, Text.escapes_cons h₁, ih hm]

/-- The innermost of several open groups closes first. -/
theorem exists_braceLength?_lt {d e n : Nat} {t : Text}
    (h : braceLength? (e + 1 + d) t = some n) :
    ∃ m < n, braceLength? d t = some m := by
  induction d, t using braceLength?_induction generalizing n with
  | nil | lone => simp [braceLength?] at h
  | pair d c t ih =>
    simp only [braceLength?, Option.map_eq_some_iff] at h
    obtain ⟨m, hm, rfl⟩ := h
    obtain ⟨k, hk, hk'⟩ := ih hm
    exact ⟨k + 2, by omega, by simp [braceLength?, hk']⟩
  | opening d t ih | closing d t ih =>
    simp only [← Nat.add_assoc, braceLength?, Option.map_eq_some_iff] at h
    obtain ⟨m, hm, rfl⟩ := h
    obtain ⟨k, hk, hk'⟩ := ih hm
    exact ⟨k + 1, by omega, by simp [braceLength?, hk']⟩
  | last t =>
    simp only [Nat.add_zero, braceLength?, Option.map_eq_some_iff] at h
    obtain ⟨m, -, rfl⟩ := h
    exact ⟨0, by simp, rfl⟩
  | other d c t h₁ h₂ h₃ ih =>
    simp only [braceLength?_other h₁ h₂ h₃, Option.map_eq_some_iff] at h
    obtain ⟨m, hm, rfl⟩ := h
    obtain ⟨k, hk, hk'⟩ := ih hm
    exact ⟨_, Nat.succ_lt_succ hk, by simp [braceLength?_other h₁ h₂ h₃, hk']⟩

/-- A brace group that begins inside another ends before it. -/
theorem braceLength?_nested {depth n q : Nat} {t : Text} (h : braceLength? depth t = some n)
    (hq : q < n) (free : Text.escapes (t.take q) = false) (open_ : t[q]? = some '{') :
    ∃ m, q + 1 + m < n ∧ braceLength? 0 (t.drop (q + 1)) = some m := by
  induction depth, t using braceLength?_induction generalizing n q with
  | nil | lone => simp [braceLength?] at h
  | last t =>
    obtain rfl : 0 = n := by simpa [braceLength?] using h
    omega
  | pair depth c t ih =>
    simp only [braceLength?, Option.map_eq_some_iff] at h
    obtain ⟨m, hm, rfl⟩ := h
    match q with
    | 0 => simp at open_
    | 1 => simp [Text.escapes, Text.escapeStep] at free
    | q + 2 =>
      obtain ⟨k, hk, hk'⟩ := ih (q := q) hm (by omega) (by simpa using free) (by simpa using open_)
      exact ⟨k, by omega, by simpa using hk'⟩
  | opening depth t ih =>
    simp only [braceLength?, Option.map_eq_some_iff] at h
    obtain ⟨m, hm, rfl⟩ := h
    cases q with
    | zero =>
      obtain ⟨k, hk, hk'⟩ := exists_braceLength?_lt (e := depth) (d := 0) (by simpa using hm)
      exact ⟨k, by omega, by simpa using hk'⟩
    | succ q =>
      rw [List.take_succ_cons, Text.escapes_cons (by decide)] at free
      obtain ⟨k, hk, hk'⟩ := ih hm (by omega) free (by simpa using open_)
      exact ⟨k, by omega, by simpa using hk'⟩
  | closing depth t ih =>
    simp only [braceLength?, Option.map_eq_some_iff] at h
    obtain ⟨m, hm, rfl⟩ := h
    cases q with
    | zero => simp at open_
    | succ q =>
      rw [List.take_succ_cons, Text.escapes_cons (by decide)] at free
      obtain ⟨k, hk, hk'⟩ := ih hm (by omega) free (by simpa using open_)
      exact ⟨k, by omega, by simpa using hk'⟩
  | other depth c t h₁ h₂ h₃ ih =>
    simp only [braceLength?_other h₁ h₂ h₃, Option.map_eq_some_iff] at h
    obtain ⟨m, hm, rfl⟩ := h
    cases q with
    | zero => simp [h₂] at open_
    | succ q =>
      rw [List.take_succ_cons, Text.escapes_cons h₁] at free
      obtain ⟨k, hk, hk'⟩ := ih hm (by omega) free (by simpa using open_)
      exact ⟨k, by omega, by simpa using hk'⟩

/-- Induction on a text as a bracket group reads it. -/
@[elab_as_elim]
theorem bracketLength?_induction {motive : Nat → Text → Prop}
    (nil : ∀ depth, motive depth []) (lone : ∀ depth, motive depth ['\\'])
    (pair : ∀ depth c t, motive depth t → motive depth ('\\' :: c :: t))
    (unclosed : ∀ depth t, braceLength? 0 t = none → motive depth ('{' :: t))
    (group : ∀ depth t n, braceLength? 0 t = some n → motive depth (t.drop (n + 1)) →
      motive depth ('{' :: t))
    (opening : ∀ depth t, motive (depth + 1) t → motive depth ('[' :: t))
    (last : ∀ t, motive 0 (']' :: t))
    (closing : ∀ depth t, motive depth t → motive (depth + 1) (']' :: t))
    (other : ∀ depth c t, c ≠ '\\' → c ≠ '{' → c ≠ '[' → c ≠ ']' → motive depth t →
      motive depth (c :: t))
    (depth : Nat) (t : Text) : motive depth t := by
  induction depth, t using bracketLength?.induct with
  | case1 depth => exact nil depth
  | case2 depth => exact lone depth
  | case3 depth c t ih => exact pair depth c t ih
  | case4 depth t h => exact unclosed depth t h
  | case5 depth t n h ih => exact group depth t n h ih
  | case6 depth t ih => exact opening depth t ih
  | case7 t => exact last t
  | case8 depth t ih => exact closing depth t ih
  | case9 depth c t h₁ h₂ h₃ h₄ h₅ h₆ ih =>
    refine other depth c t ?_ h₃ h₄ ?_ ih
    · rintro rfl
      cases t with
      | nil => exact h₁ rfl rfl
      | cons d t => exact h₂ d t rfl rfl
    · rintro rfl
      cases depth with
      | zero => exact h₅ rfl rfl
      | succ depth => exact h₆ depth rfl rfl

theorem bracketLength?_other {c : Char} (h₁ : c ≠ '\\') (h₂ : c ≠ '{') (h₃ : c ≠ '[')
    (h₄ : c ≠ ']') (depth : Nat) (t : Text) :
    bracketLength? depth (c :: t) = (bracketLength? depth t).map (· + 1) := by
  rw [bracketLength?.eq_def] <;> simp_all

theorem bracketLength?_group {n : Nat} {t : Text} (h : braceLength? 0 t = some n) (depth : Nat) :
    bracketLength? depth ('{' :: t) =
      (bracketLength? depth (t.drop (n + 1))).map (· + (n + 2)) := by
  rw [bracketLength?, h]

theorem bracketLength?_braces {inner rest : Text}
    (h : braceLength? 0 (inner ++ '}' :: rest) = some inner.length) (depth : Nat) :
    bracketLength? depth ('{' :: (inner ++ '}' :: rest)) =
      (bracketLength? depth rest).map (· + (inner.length + 2)) := by
  rw [bracketLength?_group h, ← List.drop_drop, List.drop_left]
  rfl

theorem bracketLength?_append {depth n : Nat} {s : Text} (h : bracketLength? depth s = some n)
    (t : Text) : bracketLength? depth (s ++ t) = some n := by
  induction depth, s using bracketLength?_induction generalizing n with
  | nil | lone => simp [bracketLength?] at h
  | pair depth c s ih | opening depth s ih | closing depth s ih =>
    simp only [bracketLength?, Option.map_eq_some_iff] at h
    obtain ⟨m, hm, rfl⟩ := h
    simp [bracketLength?, ih hm]
  | unclosed depth s hs => simp [bracketLength?, hs] at h
  | group depth s k hk ih =>
    simp only [bracketLength?_group hk, Option.map_eq_some_iff] at h
    obtain ⟨m, hm, rfl⟩ := h
    have := braceLength?_lt hk
    rw [List.cons_append, bracketLength?_group (braceLength?_append hk t),
      List.drop_append_of_le_length (by omega), ih hm, Option.map_some]
  | last s => simpa [bracketLength?] using h
  | other depth c s h₁ h₂ h₃ h₄ ih =>
    simp only [bracketLength?_other h₁ h₂ h₃ h₄, Option.map_eq_some_iff] at h
    obtain ⟨m, hm, rfl⟩ := h
    simp [bracketLength?_other h₁ h₂ h₃ h₄, ih hm]

theorem getElem?_bracketLength? {depth n : Nat} {t : Text} (h : bracketLength? depth t = some n) :
    t[n]? = some ']' := by
  induction depth, t using bracketLength?_induction generalizing n with
  | nil | lone => simp [bracketLength?] at h
  | pair depth c t ih | opening depth t ih | closing depth t ih =>
    simp only [bracketLength?, Option.map_eq_some_iff] at h
    obtain ⟨m, hm, rfl⟩ := h
    simpa using ih hm
  | unclosed depth t ht => simp [bracketLength?, ht] at h
  | group depth t k hk ih =>
    simp only [bracketLength?_group hk, Option.map_eq_some_iff] at h
    obtain ⟨m, hm, rfl⟩ := h
    have := ih hm
    rw [List.getElem?_drop] at this
    rw [← this, show m + (k + 2) = k + 1 + m + 1 by omega, List.getElem?_cons_succ]
  | last t =>
    obtain rfl : 0 = n := by simpa [bracketLength?] using h
    rfl
  | other depth c t h₁ h₂ h₃ h₄ ih =>
    simp only [bracketLength?_other h₁ h₂ h₃ h₄, Option.map_eq_some_iff] at h
    obtain ⟨m, hm, rfl⟩ := h
    simpa using ih hm

end FloatFlattening
