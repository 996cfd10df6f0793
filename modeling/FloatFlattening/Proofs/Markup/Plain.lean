import FloatFlattening.Proofs.Markup.Balanced
import FloatFlattening.Proofs.Markup.Seam
import Mathlib.Data.List.Infix
/-!
Plain markup: wherever one of some commands takes an argument, it takes just one, in braces, which
holds neither braces nor commands. Such a text can be cut and put together again at many places.
-/

namespace FloatFlattening

/-- A character that a plain argument may hold. -/
def Text.isInner (c : Char) : Bool := c ≠ '\\' && c ≠ '{' && c ≠ '}'

theorem Text.isInner_iff {c : Char} : isInner c ↔ c ≠ '\\' ∧ c ≠ '{' ∧ c ≠ '}' := by
  simp [isInner, and_assoc]

theorem Braced.of_inner {t : Text} (h : ∀ c ∈ t, Text.isInner c) : Braced t := by
  induction t with
  | nil => exact .nil
  | cons c t ih =>
    obtain ⟨inner, rest⟩ := List.forall_mem_cons.1 h
    obtain ⟨slash, opening, closing⟩ := Text.isInner_iff.1 inner
    exact .other slash opening closing (ih rest)

theorem braceLength?_chars {u : Text} (hu : ∀ c ∈ u, Text.isInner c) (depth : Nat) (t : Text) :
    braceLength? depth (u ++ t) = (braceLength? depth t).map (· + u.length) := by
  induction u with
  | nil => simp
  | cons c u ih =>
    obtain ⟨inner, rest⟩ := List.forall_mem_cons.1 hu
    obtain ⟨slash, opening, closing⟩ := Text.isInner_iff.1 inner
    rw [List.cons_append, braceLength?_other slash opening closing, ih rest, Option.map_map]
    rfl

namespace Text

theorem ne_slash_of_isInner {c : Char} (h : isInner c) : c ≠ '\\' := (isInner_iff.1 h).1

/-- A character of a kind that the backslash and the braces are not of. -/
theorem isInner_of_kind {p : Char → Bool} {c : Char} (h : p c) (escape : p '\\' = false)
    (opening : p '{' = false) (closing : p '}' = false) : isInner c := by
  refine isInner_iff.2 ⟨?_, ?_, ?_⟩ <;> rintro rfl <;> simp_all

theorem isInner_of_isBlank {c : Char} (h : isBlank c) : isInner c :=
  isInner_of_kind h (by decide) (by decide) (by decide)

theorem ne_slash_of_group {a r : Text} (ha : ∀ c ∈ a, isInner c) (hr : ∀ c ∈ r, c ≠ '\\') :
    ∀ c ∈ '{' :: (a ++ '}' :: r), c ≠ '\\' := by
  simp only [List.forall_mem_append, List.forall_mem_cons]
  exact ⟨by decide, fun c hc => ne_slash_of_isInner (ha c hc), by decide, hr⟩

/-- What follows a command's name, its star and the blanks after them. -/
def afterStar (r : Text) : Text := (Cursor.skipStar ⟨0, r⟩).skipBlanks.rest

theorem rest_skipStar (pos : Nat) (r : Text) :
    (Cursor.skipStar ⟨pos, r⟩).skipBlanks.rest = afterStar r := by
  rw [afterStar, Cursor.rest_skipBlanks, Cursor.rest_skipBlanks, Cursor.skipStar, Cursor.skipStar]
  by_cases star : r.head? = some '*' <;> simp [star]

@[simp] theorem afterStar_nil : afterStar [] = [] := rfl

theorem afterStar_append {r t : Text} (h : afterStar r = [] → ∀ c ∈ t.head?, goesOn c = false) :
    afterStar (r ++ t) = afterStar r ++ t := by
  have star : (Cursor.mk 0 (r ++ t)).skipStar = (Cursor.skipStar ⟨0, r⟩).extend t :=
    Cursor.skipStar_extend (c := ⟨0, r⟩) fun e => h (by rw [show r = [] from e]; rfl)
  rw [afterStar, star, Cursor.skipBlanks_extend]
  · rfl
  · intro e c hc
    have := h e c hc
    simp_all [goesOn]

theorem exists_afterStar (r : Text) :
    ∃ k ≤ r.length, afterStar r = r.drop k ∧ (∀ c ∈ r.take k, c = '*' ∨ isAsciiBlank c) ∧
      ∀ pos, (Cursor.skipStar ⟨pos, r⟩).skipBlanks.pos = pos + k := by
  by_cases star : r.head? = some '*'
  · obtain ⟨r, rfl⟩ := List.head?_eq_some_iff.1 star
    have le := (List.takeWhile_prefix (p := isAsciiBlank) (l := r)).length_le
    refine ⟨(r.takeWhile isAsciiBlank).length + 1, by simpa using le, by
      simp [afterStar, Cursor.skipStar, Cursor.skipBlanks, Nat.add_comm 1], fun c hc => ?_, fun pos => by
      simp [Cursor.skipStar, Cursor.skipBlanks]; omega⟩
    rw [List.take_succ_cons, ← List.prefix_iff_eq_take.1 (List.takeWhile_prefix _)] at hc
    exact (List.mem_cons.1 hc).imp_right List.mem_takeWhile_imp
  · have le := (List.takeWhile_prefix (p := isAsciiBlank) (l := r)).length_le
    refine ⟨(r.takeWhile isAsciiBlank).length, le, by
      simp [afterStar, Cursor.skipStar, Cursor.skipBlanks, star], fun c hc => ?_, fun pos => by
      simp [Cursor.skipStar, Cursor.skipBlanks, star]⟩
    rw [← List.prefix_iff_eq_take.1 (List.takeWhile_prefix _)] at hc
    exact .inr (List.mem_takeWhile_imp hc)

theorem awaits_of_afterStar {r : Text} (hr : r ≠ []) (h : afterStar r = []) :
    ∃ c ∈ r.getLast?, awaits c := by
  obtain ⟨k, -, eq, chars, -⟩ := exists_afterStar r
  rw [eq, List.drop_eq_nil_iff] at h
  rw [List.take_of_length_le h] at chars
  refine ⟨_, List.getLast?_eq_some_getLast hr, ?_⟩
  rcases chars _ (List.getLast_mem hr) with star | blank
  · simp [awaits, star]
  · simp [awaits, blank]

/-- What follows a command's name is no argument or a plain one. -/
def PlainArgument (r : Text) : Prop :=
  match afterStar r with
  | '[' :: _ => False
  | '{' :: u => (u.dropWhile isInner).head? = some '}'
  | _ => True

instance : DecidablePred PlainArgument := fun r => by
  unfold PlainArgument
  split <;> infer_instance

theorem head?_dropWhile_isInner {u : Text} :
    (u.dropWhile isInner).head? = some '}' ↔ ∃ a v, u = a ++ '}' :: v ∧ ∀ c ∈ a, isInner c := by
  constructor
  · intro h
    obtain ⟨v, hv⟩ := List.head?_eq_some_iff.1 h
    refine ⟨u.takeWhile isInner, v, ?_, fun c hc => List.mem_takeWhile_imp hc⟩
    rw [← hv, List.takeWhile_append_dropWhile]
  · rintro ⟨a, v, rfl, inner⟩
    rw [List.dropWhile_append_of_pos inner]
    rfl

theorem braceLength?_inner {a : Text} (inner : ∀ c ∈ a, isInner c) (v : Text) :
    braceLength? 0 (a ++ '}' :: v) = some a.length := by
  rw [braceLength?_chars inner, braceLength?]
  simp

theorem plainArgument_cases {r : Text} (h : PlainArgument r) :
    ((afterStar r).head? ≠ some '[' ∧ (afterStar r).head? ≠ some '{') ∨
      ∃ a v, afterStar r = '{' :: (a ++ '}' :: v) ∧ ∀ c ∈ a, isInner c := by
  unfold PlainArgument at h
  split at h
  next => exact h.elim
  next u eq =>
    obtain ⟨a, v, rfl, inner⟩ := head?_dropWhile_isInner.1 h
    exact .inr ⟨a, v, eq, inner⟩
  next none one =>
    refine .inl ⟨fun e => ?_, fun e => ?_⟩
    · obtain ⟨u, eq⟩ := List.head?_eq_some_iff.1 e
      exact none u eq
    · obtain ⟨u, eq⟩ := List.head?_eq_some_iff.1 e
      exact one u eq

theorem plainArgument_of_head? {r : Text} (h : (afterStar r).head? ≠ some '[')
    (h' : (afterStar r).head? ≠ some '{') : PlainArgument r := by
  unfold PlainArgument
  split <;> simp_all

theorem plainArgument_of_group {r a v : Text} (h : afterStar r = '{' :: (a ++ '}' :: v))
    (inner : ∀ c ∈ a, isInner c) : PlainArgument r := by
  unfold PlainArgument
  rw [h]
  exact head?_dropWhile_isInner.2 ⟨a, v, rfl, inner⟩

/-- The last character ends whatever it stands in. -/
def Ends (t : Text) : Prop := ∃ c, t.getLast? = some c ∧ awaits c = false ∧ c ≠ '\\'

theorem Ends.escapes {t : Text} (h : Ends t) : escapes t = false := by
  obtain ⟨c, last, -, ne⟩ := h
  exact escapes_of_getLast? last ne

theorem Ends.append {t : Text} (h : Ends t) (s : Text) : Ends (s ++ t) := by
  obtain ⟨c, last, awaits, ne⟩ := h
  refine ⟨c, ?_, awaits, ne⟩
  rw [List.getLast?_append_of_ne_nil _ (by rintro rfl; cases last), last]

theorem Ends.of_append {s t : Text} (h : Ends (s ++ t)) (ht : t ≠ []) : Ends t := by
  obtain ⟨c, last, awaits, ne⟩ := h
  exact ⟨c, by rwa [List.getLast?_append_of_ne_nil _ ht] at last, awaits, ne⟩

instance : DecidablePred Ends := fun t =>
  decidable_of_iff (∃ c ∈ t.getLast?, awaits c = false ∧ c ≠ '\\') Iff.rfl

/-- A place where a text can be cut, without cutting an escape, a command or what may be one. -/
structure Cut (s t : Text) : Prop where
  free : escapes s = false
  apart : Ends s ∨ ∀ c ∈ t.head?, goesOn c = false

theorem Cut.seam {s t : Text} (h : Cut s t) : Seam s t where
  free := h.free
  apart := h.apart.imp_left fun ⟨c, last, awaits, _⟩ d hd => by simp_all

theorem Ends.cut {s : Text} (h : Ends s) (t : Text) : Cut s t := ⟨h.escapes, .inl h⟩

/-- A backslash begins something new. -/
theorem Cut.of_head? {s t : Text} (free : escapes s = false) (h : t.head? = some '\\') : Cut s t :=
  ⟨free, .inr fun c hc => by
    obtain rfl := Option.some.inj (h.symm.trans hc)
    decide⟩

theorem Cut.prepend {s t r : Text} (h : Cut t r) (hs : escapes s = false) : Cut (s ++ t) r :=
  ⟨by rw [escapes_append hs, h.free], h.apart.imp_left fun ends => ends.append s⟩

theorem PlainArgument.append {r t : Text} (h : PlainArgument r)
    (apart : (r ≠ [] ∧ ∀ c ∈ r.getLast?, awaits c = false) ∨ ∀ c ∈ t.head?, goesOn c = false) :
    PlainArgument (r ++ t) := by
  have ends (e : afterStar r = []) : ∀ c ∈ t.head?, goesOn c = false := by
    refine apart.resolve_left fun ⟨hr, last⟩ => ?_
    obtain ⟨c, hc, hc'⟩ := awaits_of_afterStar hr e
    simp [last c hc] at hc'
  have eq := afterStar_append ends
  rcases plainArgument_cases h with ⟨bracket, brace⟩ | ⟨a, v, group, inner⟩
  · cases e : afterStar r with
    | nil =>
      rw [e, List.nil_append] at eq
      refine plainArgument_of_head? (fun hx => ?_) fun hx => ?_
      · simpa [goesOn] using ends e '[' (eq ▸ hx)
      · simpa [goesOn] using ends e '{' (eq ▸ hx)
    | cons c u =>
      rw [e] at eq bracket brace
      exact plainArgument_of_head? (by simpa [eq] using bracket) (by simpa [eq] using brace)
  · exact plainArgument_of_group (v := v ++ t) (by simp [eq, group]) inner

/-- An argument that is plain in a longer text is plain, unless it is cut. -/
theorem PlainArgument.of_append {r t : Text} (h : PlainArgument (r ++ t))
    (closed : ∀ u, afterStar r = '{' :: u → (∃ c ∈ u, isInner c = false) ∨
      ∀ c ∈ t.head?, isInner c = false ∧ c ≠ '}') : PlainArgument r := by
  cases e : afterStar r with
  | nil => exact plainArgument_of_head? (by simp [e]) (by simp [e])
  | cons x u =>
    have eq := afterStar_append (r := r) (t := t) (by simp [e])
    rw [e, List.cons_append] at eq
    rcases plainArgument_cases h with ⟨bracket, brace⟩ | ⟨a, v, group, inner⟩
    · exact plainArgument_of_head? (by simpa [eq, e] using bracket) (by simpa [eq, e] using brace)
    · obtain ⟨rfl, rest⟩ := List.cons.inj (eq.symm.trans group)
      -- The brace that closes the argument stands in `u`, or else `u` is all inside it.
      by_cases inside : ∀ c ∈ u, isInner c
      · have first := (closed u e).resolve_left fun ⟨c, hc, not⟩ => by simp [inside c hc] at not
        have drop := congrArg (List.dropWhile isInner) rest
        rw [List.dropWhile_append_of_pos inside, List.dropWhile_append_of_pos inner] at drop
        cases t with
        | nil => simp [isInner] at drop
        | cons c t =>
          obtain ⟨not, ne⟩ := first c rfl
          rw [List.dropWhile_cons_of_neg (by simp [not])] at drop
          exact absurd (List.cons.inj drop).1 ne
      · rcases List.append_eq_append_iff.1 rest with ⟨a', rfl, -⟩ | ⟨v', rfl, hv⟩
        · exact absurd (fun c hc => inner c (List.mem_append_left a' hc)) inside
        · cases v' with
          | nil => exact absurd (by simpa using inner) inside
          | cons y v' =>
            obtain ⟨rfl, -⟩ := List.cons.inj hv
            exact plainArgument_of_group e inner

/-- A text in which the named commands only have plain arguments. -/
def Plain (names : List Text) (t : Text) : Prop :=
  ∀ u ∈ t.tails, ∀ w ∈ names, ∀ r ∈ after? ('\\' :: w) u,
    (∀ c ∈ r.head?, c.isAlpha = false) → PlainArgument r

instance (names : List Text) (t : Text) : Decidable (Plain names t) :=
  inferInstanceAs (Decidable (∀ u ∈ t.tails, ∀ w ∈ names, ∀ r ∈ after? ('\\' :: w) u, _))

namespace Plain

variable {names : List Text} {s t r w : Text}

theorem argument (h : Plain names (s ++ '\\' :: (w ++ r))) (hw : w ∈ names)
    (ends : ∀ c ∈ r.head?, c.isAlpha = false) : PlainArgument r :=
  h _ ((List.mem_tails _ _).2 ⟨s, rfl⟩) w hw r (after?_eq_some_iff.2 rfl) ends

theorem of_argument (h : ∀ s w r, t = s ++ '\\' :: (w ++ r) → w ∈ names →
    (∀ c ∈ r.head?, c.isAlpha = false) → PlainArgument r) : Plain names t := by
  intro u hu w hw r hr ends
  obtain ⟨s, rfl⟩ := (List.mem_tails _ _).1 hu
  exact h s w r (by rw [after?_eq_some_iff.1 hr]; rfl) hw ends

theorem of_isSuffix (h : Plain names t) (hs : s <:+ t) : Plain names s := by
  obtain ⟨r, rfl⟩ := hs
  refine of_argument fun s' w r' e hw ends => ?_
  subst e
  exact argument (by rwa [← List.append_assoc] at h) hw ends

theorem of_forall_ne (h : ∀ c ∈ t, c ≠ '\\') : Plain names t := by
  refine of_argument fun s w r e => ?_
  exact absurd rfl (h '\\' (by simp [e]))

/-- The first part of a plain text is plain, if the cut does not open an argument. -/
theorem of_append (h : Plain names (s ++ t))
    (cut : s.getLast? = some '}' ∨ ∀ c ∈ t.head?, c = '\\') : Plain names s := by
  refine of_argument fun s' w r e hw ends => ?_
  subst e
  cases r with
  | nil => exact plainArgument_of_head? (by simp) (by simp)
  | cons x r =>
    have whole : PlainArgument (x :: r ++ t) := by
      rw [List.append_assoc, List.cons_append, List.append_assoc] at h
      exact h.argument hw ends
    refine whole.of_append fun u hu => ?_
    rcases cut with last | first
    · obtain ⟨k, -, drop, -⟩ := exists_afterStar (x :: r)
      have suffix : '{' :: u <:+ x :: r := by
        rw [← hu, drop]
        exact List.drop_suffix k _
      have brace : ('{' :: u).getLast? = some '}' := by
        rw [getLast?_of_isSuffix suffix (List.cons_ne_nil _ u), ← last, ← List.cons_append,
          ← List.append_assoc, List.getLast?_append_of_ne_nil _ (List.cons_ne_nil x r)]
      have mem := List.mem_of_getLast? brace
      exact .inl ⟨'}', by simpa using mem, rfl⟩
    · exact .inr fun c hc => by
        rw [first c hc]
        decide

theorem append (letters : ∀ w ∈ names, ∀ c ∈ w, c.isAlpha) (hs : Plain names s) (ht : Plain names t)
    (cut : Cut s t) : Plain names (s ++ t) := by
  refine of_argument fun s' w r e hw ends => ?_
  -- A word that reaches the cut ends there.
  have atWord {w' : Text} (hw' : ∀ c ∈ w', c.isAlpha) (e : s = s' ++ '\\' :: w') :
      ∀ c ∈ t.head?, goesOn c = false := by
    refine cut.apart.resolve_left ?_
    rintro ⟨c, last, awaits, ne⟩
    subst e
    rw [List.getLast?_append_of_ne_nil _ (List.cons_ne_nil _ _), List.getLast?_cons] at last
    cases hc : w'.getLast? with
    | none => simp [hc, eq_comm] at last; exact ne last
    | some d =>
      obtain rfl : d = c := by simpa [hc] using last
      simp [Text.awaits, hw' d (List.mem_of_getLast? hc)] at awaits
  rcases List.append_eq_append_iff.1 e with ⟨a, rfl, rfl⟩ | ⟨a, rfl, ha⟩
  · exact ht.argument hw ends
  · cases a with
    | nil => exact argument (s := []) (by simpa [ha] using ht) hw ends
    | cons x a =>
      rw [List.cons_append] at ha
      obtain ⟨rfl, rest⟩ := List.cons.inj ha
      rcases List.append_eq_append_iff.1 rest with ⟨r', rfl, rfl⟩ | ⟨w', rfl, rfl⟩
      · refine (hs.argument hw fun c hc => ends c ?_).append ?_
        · cases r' <;> simp_all
        · cases r' with
          | nil => exact .inr (atWord (letters w hw) (by simp))
          | cons y r' =>
            refine cut.apart.imp_left fun ends => ⟨by simp, fun d hd => ?_⟩
            obtain ⟨c, last, awaits, -⟩ := ends
            rw [← List.cons_append, ← List.append_assoc, List.getLast?_append_of_ne_nil _ (by simp),
              Option.mem_def.1 hd] at last
            exact Option.some.inj last ▸ awaits
      · have head := atWord (fun c hc => letters _ hw c (List.mem_append_left w' hc)) rfl
        cases w' with
        | nil => exact PlainArgument.append (r := []) (by decide) (.inr (by simpa using head))
        | cons y w' =>
          have := head y rfl
          simp [goesOn, letters _ hw y (by simp)] at this

/-- What stands in a brace group of a plain text is plain. -/
theorem of_group (letters : ∀ w ∈ names, w ≠ [] ∧ ∀ c ∈ w, c.isAlpha)
    (h : Plain names (s ++ '}' :: t)) (group : braceLength? 0 (s ++ '}' :: t) = some s.length) :
    Plain names s := by
  refine of_argument fun s' w r e hw ends => ?_
  obtain ⟨k, -, drop, chars, -⟩ := exists_afterStar r
  subst e
  have whole : PlainArgument (r ++ '}' :: t) := by
    rw [List.append_assoc, List.cons_append, List.append_assoc] at h
    refine h.argument hw ?_
    cases r with
    | nil => simp
    | cons x r => exact ends
  refine whole.of_append fun u hu => .inl ?_
  by_contra inner
  -- Such an argument would close where the group around it does.
  have inner : ∀ c ∈ u, isInner c := fun c hc => by
    by_contra not
    exact inner ⟨c, hc, by simpa using not⟩
  have parts : s' ++ '\\' :: (w ++ r) = s' ++ '\\' :: (w ++ r.take k) ++ '{' :: u := by
    rw [← hu, drop]
    simp
  have free : escapes (s' ++ '\\' :: (w ++ r.take k)) = false := by
    have ne : w ++ r.take k ≠ [] := by simp [(letters w hw).1]
    refine escapes_of_getLast? (c := (w ++ r.take k).getLast ne) ?_ ?_
    · rw [List.getLast?_append_of_ne_nil _ (List.cons_ne_nil _ _), List.getLast?_cons,
        List.getLast?_eq_some_getLast ne]
      rfl
    · rintro eq
      rcases List.mem_append.1 (List.getLast_mem ne) with mem | mem <;> rw [eq] at mem
      · exact absurd ((letters w hw).2 _ mem) (by decide)
      · exact absurd (chars _ mem) (by decide)
  have length : (s' ++ '\\' :: (w ++ r)).length =
      (s' ++ '\\' :: (w ++ r.take k)).length + 1 + u.length := by
    rw [parts, List.length_append, List.length_cons]
    omega
  obtain ⟨m, lt, hm⟩ := braceLength?_nested group
    (q := (s' ++ '\\' :: (w ++ r.take k)).length) (by omega)
    (by rwa [parts, List.append_assoc, List.take_left])
    (by rw [parts, List.append_assoc, List.getElem?_append_right (le_refl _)]; simp)
  rw [parts, List.append_assoc, ← List.drop_drop, List.drop_left, List.cons_append,
    List.drop_succ_cons, List.drop_zero, braceLength?_inner inner] at hm
  have := Option.some.inj hm
  omega

end Plain

end Text

end FloatFlattening
