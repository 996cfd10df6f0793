import FloatFlattening.Markup.Comment
import FloatFlattening.Proofs.Markup.Escape
import Mathlib.Data.List.Basic
/-!
Comments by the way a text is read, a character at a time. What is left without its comments has none, so
that nothing more can be taken out of it; and a text that is cut where it is read freely loses its
comments part by part.
-/

namespace FloatFlattening

open Text

namespace Comment

/-- How a character is read: freely, after a backslash that takes it, or in a comment. -/
inductive Mode
  | free
  | taken
  | within
  deriving DecidableEq, Repr

namespace Mode

def step : Mode → Char → Mode
  | free, c => if c = '\\' then taken else if c = '%' then within else free
  | taken, _ => free
  | within, c => if c = '\n' then free else within

/-- Whether a character stays. -/
def keeps : Mode → Char → Bool
  | free, c => c ≠ '%'
  | taken, _ => true
  | within, _ => false

/-- How what stays is read. -/
def outside : Mode → Mode
  | free | within => free
  | taken => taken

/-- How what comes after a text is read. -/
def after (t : Text) : Mode := t.foldl step free

variable {m : Mode} {c : Char}

theorem outside_of_keeps (h : m.keeps c) : m.outside = m := by
  cases m with
  | free | taken => rfl
  | within => cases h

theorem outside_step (h : m.keeps c) : (m.step c).outside = m.step c := by
  cases m with
  | free =>
    have percent : c ≠ '%' := by simpa [keeps] using h
    by_cases backslash : c = '\\' <;> simp [step, backslash, percent, outside]
  | taken => rfl
  | within => cases h

theorem outside_step_of_not_keeps (h : m.keeps c = false) : (m.step c).outside = m.outside := by
  cases m with
  | free =>
    obtain rfl : c = '%' := by simpa [keeps] using h
    rfl
  | taken => cases h
  | within => by_cases ends : c = '\n' <;> simp [step, ends, outside]

/-- Outside comments, a character is taken just where it is escaped. -/
theorem escapeStep_of_keeps (h : m.keeps c) : escapeStep (m = taken) c = decide (m.step c = taken) := by
  cases m with
  | free =>
    have percent : c ≠ '%' := by simpa [keeps] using h
    by_cases backslash : c = '\\' <;> simp [escapeStep, step, backslash, percent]
  | taken => rfl
  | within => cases h

end Mode

/-- The characters that stay when a text is read from a mode on. -/
def kept : Mode → Text → Text
  | _, [] => []
  | m, c :: t => if m.keeps c then c :: kept (m.step c) t else kept (m.step c) t

variable {m : Mode} {c : Char} {t before rest : Text}

theorem kept_keep (h : m.keeps c) : kept m (c :: t) = c :: kept (m.step c) t := by simp [kept, h]

theorem kept_drop (h : m.keeps c = false) : kept m (c :: t) = kept (m.step c) t := by simp [kept, h]

theorem kept_append (m : Mode) (s t : Text) : kept m (s ++ t) = kept m s ++ kept (s.foldl Mode.step m) t := by
  induction s generalizing m with
  | nil => rfl
  | cons c s ih =>
    cases h : m.keeps c with
    | true => rw [List.cons_append, kept_keep h, kept_keep h, ih, List.cons_append, List.foldl_cons]
    | false => rw [List.cons_append, kept_drop h, kept_drop h, ih, List.foldl_cons]

theorem length_kept_le (m : Mode) (t : Text) : (kept m t).length ≤ t.length := by
  induction t generalizing m with
  | nil => exact Nat.le_refl _
  | cons c t ih =>
    have := ih (m.step c)
    cases h : m.keeps c with
    | true => simpa [kept_keep h] using this
    | false =>
      rw [kept_drop h, List.length_cons]
      omega

theorem erase_eq_kept (inside : Bool) (t : Text) :
    erase inside t = kept (if inside then .within else .free) t := by
  fun_induction erase inside t with
  | case1 => rfl
  | case2 c t ih => by_cases ends : c = '\n' <;> simp_all [kept, Mode.keeps, Mode.step]
  | case3 => rfl
  | case4 c t ih => simp_all [kept, Mode.keeps, Mode.step]
  | case5 t ih => simp_all [kept, Mode.keeps, Mode.step]
  | case6 c t lone pair percent ih =>
    have backslash := ne_backslash lone pair
    have percent : c ≠ '%' := percent
    simp_all [kept, Mode.keeps, Mode.step]

theorem withoutComments_eq_kept (t : Text) : t.withoutComments = kept .free t := erase_eq_kept false t

/-- What stays is read as it was, and all of it stays. -/
theorem kept_kept (m : Mode) (t : Text) : kept m.outside (kept m t) = kept m t := by
  induction t generalizing m with
  | nil => rfl
  | cons c t ih =>
    cases h : m.keeps c with
    | true =>
      have ih := ih (m.step c)
      rw [Mode.outside_step h] at ih
      rw [kept_keep h, Mode.outside_of_keeps h, kept_keep h, ih]
    | false => rw [kept_drop h, ← Mode.outside_step_of_not_keeps h, ih]

theorem kept_cons_eq_iff : kept m (c :: t) = c :: t ↔ m.keeps c ∧ kept (m.step c) t = t := by
  cases h : m.keeps c with
  | true => simp [kept_keep h]
  | false =>
    have := length_kept_le (m.step c) t
    rw [kept_drop h]
    refine ⟨fun eq => ?_, fun both => absurd both.1 (by simp)⟩
    rw [eq, List.length_cons] at this
    omega

/-- Where all stays, a percent sign is escaped. -/
theorem escapes_of_kept (h : kept m (before ++ '%' :: rest) = before ++ '%' :: rest) :
    before.foldl escapeStep (m = .taken) = true := by
  induction before generalizing m with
  | nil =>
    obtain ⟨keeps, -⟩ := kept_cons_eq_iff.1 h
    cases m with
    | free | within => cases keeps
    | taken => rfl
  | cons c before ih =>
    obtain ⟨keeps, later⟩ := kept_cons_eq_iff.1 h
    rw [List.foldl_cons, Mode.escapeStep_of_keeps keeps]
    exact ih later

end Comment

namespace Text

open Comment

/-- What is left without comments is free of them: nothing more is taken out of it, and each percent sign in it
is the second character of a control symbol. Parts of a text lose their comments by themselves just where the
text is cut neither in a comment nor behind a backslash that takes the next character. -/
theorem withoutComments_lawful :
    (∀ t : Text, t.withoutComments.withoutComments = t.withoutComments) ∧
      (∀ t before rest : Text, t.withoutComments = before ++ '%' :: rest →
        ∃ start, before = start ++ ['\\'] ∧ escapes start = false) ∧
      ∀ s : Text, Mode.after s = .free ↔
        ∀ t : Text, (s ++ t).withoutComments = s.withoutComments ++ t.withoutComments := by
  have again (t : Text) : t.withoutComments.withoutComments = t.withoutComments := by
    rw [withoutComments_eq_kept, withoutComments_eq_kept]
    exact kept_kept .free t
  refine ⟨again, fun t before rest eq => ?_, fun s => ?_⟩
  · have whole := again t
    rw [eq, withoutComments_eq_kept] at whole
    exact exists_of_escapes (escapes_of_kept whole)
  · simp only [withoutComments_eq_kept, kept_append, List.append_cancel_left_eq]
    constructor
    · intro free t
      rw [show s.foldl Mode.step .free = .free from free]
    · intro all
      -- A text of one percent sign tells the modes apart, but for a comment, which a letter does.
      have percent := all ['%']
      have letter := all ['a']
      cases ends : s.foldl Mode.step .free with
      | free => exact ends
      | taken => simp [ends, kept, Mode.keeps] at percent
      | within => simp [ends, kept, Mode.keeps] at letter

end Text

end FloatFlattening
