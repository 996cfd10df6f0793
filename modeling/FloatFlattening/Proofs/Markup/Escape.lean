import FloatFlattening.Text.Basic
/-!
Escapes. A backslash takes the next character with it unless it is itself taken, so whether a
character is escaped depends only on the run of backslashes before it.
-/

namespace FloatFlattening.Text

def escapeStep (escaped : Bool) (c : Char) : Bool := !escaped && c == '\\'

/-- There is no backslash in the last case of a recursion that reads one together with the character after it. -/
theorem ne_backslash {c : Char} {t : Text} (lone : c = '\\' → t = [] → False)
    (pair : ∀ d s, c = '\\' → t = d :: s → False) : c ≠ '\\' := by
  rintro rfl
  cases t with
  | nil => exact lone rfl rfl
  | cons d t => exact pair d t rfl rfl

/-- Whether a text takes the character after it with it. -/
def escapes (t : Text) : Bool := t.foldl escapeStep false

@[simp] theorem escapes_nil : escapes [] = false := rfl

@[simp] theorem escapes_concat (t : Text) (c : Char) :
    escapes (t ++ [c]) = (!escapes t && c == '\\') := by
  simp [escapes, escapeStep]

theorem exists_of_escapes {t : Text} (h : escapes t = true) : ∃ s, t = s ++ ['\\'] ∧ escapes s = false := by
  rcases t.eq_nil_or_concat with rfl | ⟨s, c, rfl⟩
  · cases h
  · rw [List.concat_eq_append, escapes_concat, Bool.and_eq_true, Bool.not_eq_true', beq_iff_eq] at h
    obtain ⟨free, rfl⟩ := h
    exact ⟨s, List.concat_eq_append, free⟩

theorem escapes_append {s : Text} (h : escapes s = false) (t : Text) :
    escapes (s ++ t) = escapes t := by
  rw [escapes, List.foldl_append, show s.foldl escapeStep false = false from h, escapes]

theorem escapes_cons {c : Char} (h : c ≠ '\\') (t : Text) : escapes (c :: t) = escapes t :=
  escapes_append (s := [c]) (by simp [escapes, escapeStep, h]) t

@[simp] theorem escapes_pair (c : Char) (t : Text) : escapes ('\\' :: c :: t) = escapes t :=
  escapes_append (s := ['\\', c]) (by simp [escapes, escapeStep]) t

theorem escapes_of_getLast? {t : Text} {c : Char} (h : t.getLast? = some c) (hc : c ≠ '\\') :
    escapes t = false := by
  obtain ⟨s, rfl⟩ := List.getLast?_eq_some_iff.1 h
  simp [hc]

theorem escapes_of_forall {t : Text} (h : ∀ c ∈ t, c ≠ '\\') : escapes t = false := by
  induction t with
  | nil => rfl
  | cons c t ih =>
    rw [escapes_cons (h c List.mem_cons_self)]
    exact ih fun d hd => h d (List.mem_cons_of_mem c hd)

theorem escapes_take_succ {t : Text} {n : Nat} {c : Char} (h : t[n]? = some c) (hc : c ≠ '\\') :
    escapes (t.take (n + 1)) = false := by
  simp [List.take_add_one, h, hc]

/-- What begins unescaped in a text is escaped there as it is by itself. -/
theorem escapes_drop_take {t : Text} {i : Nat} (h : escapes (t.take i) = false) (n : Nat) :
    escapes ((t.drop i).take n) = escapes (t.take (i + n)) := by
  rw [List.take_add, escapes_append h]

end FloatFlattening.Text
