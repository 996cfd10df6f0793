import FloatFlattening.Proofs.Markup.Comment
import Mathlib.Data.List.Forall2
/-!
The control words of a text before and after its comments are taken out. Each stays, in its place, but one
that only comments part from a letter is lengthened by it.
-/

namespace FloatFlattening

open Text Comment

namespace ControlWord

/-- The control word that a text begins with, and what follows it. -/
def first? : Text → Option (Text × Text)
  | '\\' :: c :: t =>
    if c.isAlpha then some ((c :: t).takeWhile Char.isAlpha, (c :: t).dropWhile Char.isAlpha) else none
  | _ => none

/-- The control words that begin where a reader is free, each with what follows it. -/
def met {σ : Type} (step : σ → Char → σ) (free : σ → Bool) : σ → Text → List (Text × Text)
  | _, [] => []
  | s, c :: t => (if free s then (first? (c :: t)).toList else []) ++ met step free (step s c) t

/-- The control words of a text, by the scanner's reading: a percent sign is a character like any other. -/
def all (t : Text) : List Text := (met escapeStep (fun escaped => !escaped) false t).map Prod.fst

/-- The control words outside comments, each with what follows it. -/
def outsideComments (t : Text) : List (Text × Text) := met Mode.step (· = .free) .free t

/-- Whole comments, one after the other. -/
inductive Comments : Text → Prop
  | nil : Comments []
  | cons {body more : Text} (line : ∀ c ∈ body, c ≠ '\n') (later : Comments more) :
    Comments ('%' :: (body ++ '\n' :: more))

/-- A text in which a letter comes next, comments aside. -/
def RunsOn (t : Text) : Prop := ∃ u c rest, t = u ++ c :: rest ∧ Comments u ∧ c.isAlpha

/-- A control word as it is read when the comments behind it are gone. -/
def lengthened (p : Text × Text) : Text := p.1 ++ p.2.withoutComments.takeWhile Char.isAlpha

section

variable {σ : Type} {step : σ → Char → σ} {free : σ → Bool} {s : σ} {c : Char} {t : Text}

theorem first?_other (h : c ≠ '\\') : first? (c :: t) = none := by
  rw [first?]
  rintro _ _ eq
  exact h (List.cons.inj eq).1

theorem first?_symbol (h : c.isAlpha = false) : first? ('\\' :: c :: t) = none := by simp [first?, h]

theorem first?_letter (h : c.isAlpha) :
    first? ('\\' :: c :: t) = some (c :: t.takeWhile Char.isAlpha, t.dropWhile Char.isAlpha) := by
  simp [first?, h]

theorem met_other (h : c ≠ '\\') : met step free s (c :: t) = met step free (step s c) t := by
  simp [met, first?_other h]

theorem met_pair (s : σ) (is_free : free s = true) (taken : free (step s '\\') = false) :
    met step free s ('\\' :: c :: t) =
      (first? ('\\' :: c :: t)).toList ++ met step free (step (step s '\\') c) t := by
  simp [met, is_free, taken]

theorem met_not_free (h : free s = false) : met step free s (c :: t) = met step free (step s c) t := by
  simp [met, h]

end

variable {c : Char} {t u : Text}

theorem erase_comments (h : Comments u) (t : Text) : erase false (u ++ t) = erase false t := by
  have line {body : Text} (h : ∀ c ∈ body, c ≠ '\n') (t : Text) :
      erase true (body ++ '\n' :: t) = erase false t := by
    induction body with
    | nil => simp [erase]
    | cons c body ih =>
      simp only [List.forall_mem_cons] at h
      simp [erase, h.1, ih h.2]
  induction h with
  | nil => rfl
  | cons ends later ih => simp [erase, line ends, ih]

/-- What comes first in a text without its comments comes behind whole comments; within one, behind its end. -/
theorem exists_of_head?_erase {inside : Bool} (first : c ∈ (erase inside t).head?) (letter : c.isAlpha) :
    ∃ line u rest, t = line ++ (u ++ c :: rest) ∧ Comments u ∧
      if inside then ∃ body, line = body ++ ['\n'] ∧ ∀ d ∈ body, d ≠ '\n' else line = [] := by
  fun_induction erase inside t with
  | case1 => cases first
  | case2 d t ih =>
    obtain ⟨line, u, rest, rfl, comments, whole⟩ := ih first
    by_cases ends : d = '\n'
    · obtain rfl : line = [] := by simpa [ends] using whole
      exact ⟨['\n'], u, rest, by simp [ends], comments, [], rfl, by simp⟩
    · obtain ⟨body, rfl, apart⟩ : ∃ body, line = body ++ ['\n'] ∧ ∀ d ∈ body, d ≠ '\n' := by
        simpa [ends] using whole
      exact ⟨d :: (body ++ ['\n']), u, rest, by simp, comments, d :: body, rfl, by simpa [ends] using apart⟩
  | case3 | case4 =>
    obtain rfl := Option.some.inj first
    exact absurd letter (by decide)
  | case5 t ih =>
    obtain ⟨line, u, rest, rfl, comments, body, rfl, apart⟩ := ih first
    exact ⟨[], '%' :: (body ++ '\n' :: u), rest, by simp, .cons apart comments, rfl⟩
  | case6 d t =>
    obtain rfl := Option.some.inj first
    exact ⟨[], [], t, rfl, .nil, rfl⟩

theorem erase_letter (h : c.isAlpha) : erase false (c :: t) = c :: erase false t := by
  rw [erase]
  · rintro rfl
    exact absurd h (by decide)
  · rintro d t rfl
    exact absurd h (by decide)
  · rintro rfl
    exact absurd h (by decide)

theorem runsOn_iff : RunsOn t ↔ ∃ c ∈ t.withoutComments.head?, c.isAlpha := by
  constructor
  · rintro ⟨u, c, rest, rfl, comments, letter⟩
    exact ⟨c, by simp [withoutComments, erase_comments comments, erase_letter letter], letter⟩
  · rintro ⟨c, first, letter⟩
    obtain ⟨line, u, rest, rfl, comments, rfl⟩ := exists_of_head?_erase first letter
    exact ⟨u, c, rest, rfl, comments, letter⟩

/-- The letters that a text without its comments begins with are those that it begins with itself, and those
that come when the comments behind them are gone. -/
theorem takeWhile_erase (t : Text) : (erase false t).takeWhile Char.isAlpha =
    t.takeWhile Char.isAlpha ++ (withoutComments (t.dropWhile Char.isAlpha)).takeWhile Char.isAlpha := by
  induction t with
  | nil => rfl
  | cons c t ih =>
    by_cases letter : c.isAlpha
    · simp [erase_letter letter, letter, ih]
    · simp [letter, withoutComments]

/-- Without comments, a text has the control words that it has outside comments, each lengthened by the letters
that come up to it. -/
theorem all_withoutComments (t : Text) :
    all t.withoutComments = (outsideComments t).map lengthened := by
  suffices general : ∀ inside, (met escapeStep (fun escaped => !escaped) false (erase inside t)).map Prod.fst =
      (met Mode.step (· = .free) (if inside then .within else .free) t).map lengthened from general false
  intro inside
  fun_induction erase inside t with
  | case1 => rfl
  | case2 c t ih =>
    rw [met_not_free (by simp), ih]
    by_cases ends : c = '\n' <;> simp [Mode.step, ends]
  | case3 => rfl
  | case4 c t ih =>
    rw [met_pair false rfl rfl]
    simp only [Bool.false_eq_true, if_false] at ih ⊢
    rw [met_pair Mode.free rfl rfl, List.map_append, List.map_append]
    congr 1
    cases letter : c.isAlpha with
    | true => simp [first?_letter letter, lengthened, takeWhile_erase]
    | false => simp [first?_symbol letter]
  | case5 t ih =>
    rw [ih]
    simp only [Bool.false_eq_true, if_true, if_false]
    rw [met_other (by decide)]
    rfl
  | case6 c t lone pair percent ih =>
    have backslash := ne_backslash lone pair
    have percent : c ≠ '%' := percent
    simp only [Bool.false_eq_true, if_false] at ih ⊢
    rw [met_other backslash, met_other backslash]
    simpa [escapeStep, Mode.step, beq_false_of_ne backslash, backslash, percent] using ih

theorem takeWhile_isAlpha_eq_nil (t : Text) : t.takeWhile Char.isAlpha = [] ↔ ¬ ∃ c ∈ t.head?, c.isAlpha := by
  cases t with
  | nil => simp
  | cons c t => by_cases letter : c.isAlpha <;> simp [letter]

/-- Taking comments out neither makes nor hides a control word, and keeps their order; but it leaves them as they
were only if no comment parts one from a letter. -/
theorem all_withoutComments_eq_iff (t : Text) :
    List.Forall₂ (fun p w => p.1 <+: w) (outsideComments t) (all t.withoutComments) ∧
      (all t.withoutComments = (outsideComments t).map Prod.fst ↔ ∀ p ∈ outsideComments t, ¬ RunsOn p.2) := by
  rw [all_withoutComments]
  constructor
  · rw [List.forall₂_map_right_iff, List.forall₂_same]
    exact fun p _ => List.prefix_append _ _
  · rw [List.map_inj_left]
    refine forall₂_congr fun p _ => ?_
    rw [lengthened, List.append_right_eq_self, takeWhile_isAlpha_eq_nil, runsOn_iff]

/-- A control word that ends its line, and goes on in the next when the comment between them is gone. -/
def split : Text := "\\la%\nbel\x7ba\x7d"

theorem exists_lengthened : all split.withoutComments ≠ (outsideComments split).map Prod.fst := by
  decide +kernel

end ControlWord

end FloatFlattening
