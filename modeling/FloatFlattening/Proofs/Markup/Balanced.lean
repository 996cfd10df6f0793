import FloatFlattening.Proofs.List
import FloatFlattening.Proofs.Markup.Group
/-!
What a group may hold. The texts between braces, and those between brackets, that pair are given by two
grammars, and the lengths of groups are the lengths of such texts.
-/

namespace FloatFlattening

/-- A text that may stand in braces: a backslash takes the next character with it, and braces pair. -/
inductive Braced : Text → Prop
  | nil : Braced []
  | pair {t : Text} (c : Char) : Braced t → Braced ('\\' :: c :: t)
  | group {s t : Text} : Braced s → Braced t → Braced ('{' :: (s ++ '}' :: t))
  | other {c : Char} {t : Text} : c ≠ '\\' → c ≠ '{' → c ≠ '}' → Braced t → Braced (c :: t)

/-- A text that may stand in brackets: in it brackets pair too, but for those within braces, and a closing
brace is like any other character. -/
inductive Bracketed : Text → Prop
  | nil : Bracketed []
  | pair {t : Text} (c : Char) : Bracketed t → Bracketed ('\\' :: c :: t)
  | braces {s t : Text} : Braced s → Bracketed t → Bracketed ('{' :: (s ++ '}' :: t))
  | group {s t : Text} : Bracketed s → Bracketed t → Bracketed ('[' :: (s ++ ']' :: t))
  | other {c : Char} {t : Text} : c ≠ '\\' → c ≠ '{' → c ≠ '[' → c ≠ ']' → Bracketed t → Bracketed (c :: t)

/-- A text that closes the groups open before it, up to the closing brace of the outermost. -/
inductive Closes (Inner : Text → Prop) (close : Char) : Nat → Text → Prop
  | last {s : Text} : Inner s → Closes Inner close 0 s
  | cons {depth : Nat} {s t : Text} : Inner s → Closes Inner close depth t →
    Closes Inner close (depth + 1) (s ++ close :: t)

namespace Closes

variable {Inner : Text → Prop} {close : Char} {s t u : Text} {depth : Nat}

theorem prepend (hu : ∀ s, Inner s → Inner (u ++ s)) (h : Closes Inner close depth t) :
    Closes Inner close depth (u ++ t) := by
  cases h with
  | last h => exact .last (hu _ h)
  | cons h more =>
    rw [← List.append_assoc]
    exact .cons (hu _ h) more

/-- An opening delimiter and what closes it stand in the group around them. -/
theorem nest {opening : Char} (hu : ∀ s t, Inner s → Inner t → Inner (opening :: (s ++ close :: t)))
    (h : Closes Inner close (depth + 1) t) : Closes Inner close depth (opening :: t) := by
  cases h with
  | @cons _ s t hs more =>
    have := more.prepend (u := opening :: (s ++ [close])) fun t ht => by simpa using hu s t hs ht
    simpa using this

theorem inner (h : Closes Inner close 0 t) : Inner t := by
  cases h with
  | last h => exact h

end Closes

variable {s t : Text} {depth n : Nat}

theorem Braced.append (hs : Braced s) (ht : Braced t) : Braced (s ++ t) := by
  induction hs with
  | nil => exact ht
  | pair c _ ih => exact .pair c ih
  | group hs _ _ ih =>
    rw [List.cons_append, List.append_assoc]
    exact .group hs ih
  | other h₁ h₂ h₃ _ ih => exact .other h₁ h₂ h₃ ih

theorem Braced.escapes (h : Braced t) : Text.escapes t = false := by
  induction h with
  | nil => rfl
  | pair c _ ih => rwa [Text.escapes_pair]
  | group _ _ ihs iht =>
    rwa [Text.escapes_cons (by decide), Text.escapes_append ihs, Text.escapes_cons (by decide)]
  | other h _ _ _ ih => rwa [Text.escapes_cons h]

/-- A text that may stand in braces closes none of the groups it stands in. -/
theorem Braced.length_append (h : Braced s) (depth : Nat) (r : Text) :
    braceLength? depth (s ++ r) = (braceLength? depth r).map (· + s.length) := by
  induction h generalizing depth r with
  | nil => simp
  | pair c _ ih => simp [braceLength?, ih, Function.comp_def, Nat.add_assoc]
  | @group s t _ _ hs ht =>
    have inner : braceLength? (depth + 1) (s ++ '}' :: (t ++ r)) =
        (braceLength? depth r).map (· + (t.length + 1 + s.length)) := by
      rw [hs, braceLength?, ht]
      simp [Function.comp_def, Nat.add_assoc]
    rw [List.cons_append, List.append_assoc, List.cons_append, braceLength?, inner, Option.map_map]
    congr 1
    funext m
    simp only [Function.comp, List.length_cons, List.length_append]
    omega
  | other h₁ h₂ h₃ _ ih => simp [braceLength?_other h₁ h₂ h₃, ih, Function.comp_def, Nat.add_assoc]

theorem closes_of_braceLength? (h : braceLength? depth t = some n) : Closes Braced '}' depth (t.take n) := by
  induction depth, t using braceLength?_induction generalizing n with
  | nil | lone => simp [braceLength?] at h
  | pair depth c t ih =>
    obtain ⟨m, hm, rfl⟩ := Option.map_eq_some_iff.1 h
    exact (ih hm).prepend (u := ['\\', c]) fun _ => .pair c
  | opening depth t ih =>
    simp only [braceLength?, Option.map_eq_some_iff] at h
    obtain ⟨m, hm, rfl⟩ := h
    exact (ih hm).nest fun _ _ => .group
  | last t =>
    obtain rfl : 0 = n := by simpa [braceLength?] using h
    exact .last .nil
  | closing depth t ih =>
    simp only [braceLength?, Option.map_eq_some_iff] at h
    obtain ⟨m, hm, rfl⟩ := h
    exact .cons .nil (ih hm)
  | other depth c t h₁ h₂ h₃ ih =>
    simp only [braceLength?_other h₁ h₂ h₃, Option.map_eq_some_iff] at h
    obtain ⟨m, hm, rfl⟩ := h
    exact (ih hm).prepend (u := [c]) fun _ => .other h₁ h₂ h₃

/-- The length of a brace group is that of the text before the brace that pairs with its own. -/
theorem braceLength?_eq_some_iff :
    braceLength? 0 t = some n ↔ ∃ s r, Braced s ∧ t = s ++ '}' :: r ∧ s.length = n := by
  constructor
  · intro h
    exact ⟨t.take n, t.drop (n + 1), (closes_of_braceLength? h).inner,
      eq_take_append_cons (getElem?_braceLength? h), List.length_take_of_le (Nat.le_of_lt (braceLength?_lt h))⟩
  · rintro ⟨s, r, hs, rfl, rfl⟩
    simp [hs.length_append, braceLength?]

theorem braceLength?_eq_none_iff : braceLength? 0 t = none ↔ ∀ s r, Braced s → t ≠ s ++ '}' :: r := by
  rw [Option.eq_none_iff_forall_ne_some]
  constructor
  · intro none s r hs eq
    exact none _ (braceLength?_eq_some_iff.2 ⟨s, r, hs, eq, rfl⟩)
  · intro none n length
    obtain ⟨s, r, hs, eq, -⟩ := braceLength?_eq_some_iff.1 length
    exact none s r hs eq

theorem Bracketed.length_append (h : Bracketed s) (depth : Nat) (r : Text) :
    bracketLength? depth (s ++ r) = (bracketLength? depth r).map (· + s.length) := by
  induction h generalizing depth r with
  | nil => simp
  | pair c _ ih => simp [bracketLength?, ih, Function.comp_def, Nat.add_assoc]
  | @braces s t hs _ ht =>
    have length : braceLength? 0 (s ++ '}' :: (t ++ r)) = some s.length :=
      braceLength?_eq_some_iff.2 ⟨s, _, hs, rfl, rfl⟩
    rw [List.cons_append, List.append_assoc, List.cons_append, bracketLength?_braces length, ht, Option.map_map]
    congr 1
    funext m
    simp only [Function.comp, List.length_cons, List.length_append]
    omega
  | @group s t _ _ hs ht =>
    have inner : bracketLength? (depth + 1) (s ++ ']' :: (t ++ r)) =
        (bracketLength? depth r).map (· + (t.length + 1 + s.length)) := by
      rw [hs, bracketLength?, ht]
      simp [Function.comp_def, Nat.add_assoc]
    rw [List.cons_append, List.append_assoc, List.cons_append, bracketLength?, inner, Option.map_map]
    congr 1
    funext m
    simp only [Function.comp, List.length_cons, List.length_append]
    omega
  | other h₁ h₂ h₃ h₄ _ ih =>
    simp [bracketLength?_other h₁ h₂ h₃ h₄, ih, Function.comp_def, Nat.add_assoc]

theorem closes_of_bracketLength? (h : bracketLength? depth t = some n) :
    Closes Bracketed ']' depth (t.take n) := by
  induction depth, t using bracketLength?_induction generalizing n with
  | nil | lone => simp [bracketLength?] at h
  | pair depth c t ih =>
    simp only [bracketLength?, Option.map_eq_some_iff] at h
    obtain ⟨m, hm, rfl⟩ := h
    exact (ih hm).prepend (u := ['\\', c]) fun _ => .pair c
  | unclosed depth t ht => simp [bracketLength?, ht] at h
  | group depth t k hk ih =>
    obtain ⟨s, r, hs, rfl, rfl⟩ := braceLength?_eq_some_iff.1 hk
    simp only [bracketLength?_braces hk, Option.map_eq_some_iff] at h
    obtain ⟨m, hm, rfl⟩ := h
    rw [← List.drop_drop, List.drop_left, List.drop_succ_cons, List.drop_zero] at ih
    have := (ih hm).prepend (u := '{' :: (s ++ ['}'])) fun t ht => by simpa using Bracketed.braces hs ht
    rw [show m + (s.length + 2) = ('{' :: (s ++ ['}'])).length + m by simp; omega,
      show '{' :: (s ++ '}' :: r) = '{' :: (s ++ ['}']) ++ r by simp, List.take_length_add_append]
    exact this
  | opening depth t ih =>
    simp only [bracketLength?, Option.map_eq_some_iff] at h
    obtain ⟨m, hm, rfl⟩ := h
    exact (ih hm).nest fun _ _ => .group
  | last t =>
    obtain rfl : 0 = n := by simpa [bracketLength?] using h
    exact .last .nil
  | closing depth t ih =>
    simp only [bracketLength?, Option.map_eq_some_iff] at h
    obtain ⟨m, hm, rfl⟩ := h
    exact .cons .nil (ih hm)
  | other depth c t h₁ h₂ h₃ h₄ ih =>
    simp only [bracketLength?_other h₁ h₂ h₃ h₄, Option.map_eq_some_iff] at h
    obtain ⟨m, hm, rfl⟩ := h
    exact (ih hm).prepend (u := [c]) fun _ => .other h₁ h₂ h₃ h₄

theorem bracketLength?_eq_some_iff :
    bracketLength? 0 t = some n ↔ ∃ s r, Bracketed s ∧ t = s ++ ']' :: r ∧ s.length = n := by
  constructor
  · intro h
    have close := getElem?_bracketLength? h
    exact ⟨t.take n, t.drop (n + 1), (closes_of_bracketLength? h).inner, eq_take_append_cons close,
      List.length_take_of_le (Nat.le_of_lt (List.getElem?_eq_some_iff.1 close).1)⟩
  · rintro ⟨s, r, hs, rfl, rfl⟩
    simp [hs.length_append, bracketLength?]

theorem bracketLength?_eq_none_iff : bracketLength? 0 t = none ↔ ∀ s r, Bracketed s → t ≠ s ++ ']' :: r := by
  rw [Option.eq_none_iff_forall_ne_some]
  constructor
  · intro none s r hs eq
    exact none _ (bracketLength?_eq_some_iff.2 ⟨s, r, hs, eq, rfl⟩)
  · intro none n length
    obtain ⟨s, r, hs, eq, -⟩ := bracketLength?_eq_some_iff.1 length
    exact none s r hs eq

end FloatFlattening
