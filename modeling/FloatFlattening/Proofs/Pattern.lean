import FloatFlattening.Flattening.Directive
/-!
Matches of a pattern: how long they are, and what is left of a text without them.
-/

namespace FloatFlattening

namespace Pattern

/-- A match of a pattern lies in the text, and is of some length at least. -/
def Takes (p : Pattern) (least : Nat) : Prop := ∀ t n, p.length? t = some n → least ≤ n ∧ n ≤ t.length

/-- What is left of a text without the matches of a pattern, and how many those are. A match is taken where
one first begins, and the next past its end. -/
inductive Erased (p : Pattern) : (count : Nat) → Text → Text → Prop
  | nil : Erased p 0 [] []
  | keep {c : Char} {t u : Text} {count : Nat} (none : p.length? (c :: t) = none) (later : Erased p count t u) :
      Erased p count (c :: t) (c :: u)
  | drop {m t u : Text} {count : Nat} (found : p.length? (m ++ t) = some m.length) (ne : m ≠ [])
      (later : Erased p count t u) : Erased p (count + 1) (m ++ t) u

variable {p q : Pattern} {least least' : Nat} {c : Char} {value w t : Text}

theorem exchange_cons (h : p.length? (c :: t) = none) :
    p.exchange value (c :: t) = c :: p.exchange value t := by
  rw [exchange]
  simp only [h]

theorem exchange_of_occursIn (h : p.occursIn t = false) : p.exchange value t = t := by
  induction t with
  | nil => rw [exchange]
  | cons c t ih =>
    simp only [occursIn, Bool.or_eq_false_iff, Option.isSome_eq_false_iff, Option.isNone_iff_eq_none] at h
    rw [exchange_cons h.1, ih h.2]

theorem exchange_word (hw : w ≠ []) :
    (word w).exchange value (w ++ t) = value ++ (word w).exchange value t := by
  obtain ⟨c, w, rfl⟩ := List.exists_cons_of_ne_nil hw
  have length : (word (c :: w)).length? (c :: (w ++ t)) = some (w.length + 1) := by simp [word]
  rw [List.cons_append, exchange]
  simp only [length]
  simp

theorem erase_of_spans {pos : Nat} (h : p.spans pos t = []) : p.erase t = t := by
  rw [erase]
  induction t generalizing pos with
  | nil => rw [exchange]
  | cons c t ih =>
    rw [spans] at h
    split at h
    next none => rw [exchange_cons none, ih h]
    next => cases h

/-! What a match of a pattern is made of. -/

theorem length?_oneOf {ws : List Text} {n : Nat} (h : (oneOf ws).length? t = some n) :
    ∃ w ∈ ws, w <+: t ∧ w.length = n := by
  simp only [oneOf, Option.map_eq_some_iff] at h
  obtain ⟨w, found, rfl⟩ := h
  have begins := List.find?_some found
  exact ⟨w, List.mem_of_find?_eq_some found, List.isPrefixOf_iff_prefix.1 begins, rfl⟩

theorem length?_append {n : Nat} (h : (p ++ q).length? t = some n) :
    ∃ i j, p.length? t = some i ∧ q.length? (t.drop i) = some j ∧ i + j = n := by
  change (do let i ← p.length? t; let j ← q.length? (t.drop i); return i + j) = some n at h
  simp only [Option.bind_eq_bind, Option.bind_eq_some_iff] at h
  obtain ⟨i, first, j, second, eq⟩ := h
  exact ⟨i, j, first, second, Option.some.inj eq⟩

theorem length?_orElse {n : Nat} (h : (p <|> q).length? t = some n) :
    p.length? t = some n ∨ q.length? t = some n := by
  change (p.length? t).orElse (fun _ => q.length? t) = some n at h
  cases first : p.length? t with
  | none => exact .inr (by simpa [first] using h)
  | some m => exact .inl (by simpa [first] using h)

theorem Takes.mono (h : p.Takes least) (le : least' ≤ least) : p.Takes least' := fun t n found => by
  have := h t n found
  omega

theorem takes_word (w : Text) : (word w).Takes w.length := by
  intro t n found
  simp only [word, Option.ite_none_right_eq_some, List.isPrefixOf_iff_prefix, Option.some.injEq] at found
  obtain ⟨begins, rfl⟩ := found
  exact ⟨Nat.le_refl _, begins.length_le⟩

theorem takes_oneOf (least : Nat) {ws : List Text} (h : ∀ w ∈ ws, least ≤ w.length) : (oneOf ws).Takes least := by
  intro t n found
  obtain ⟨w, mem, begins, rfl⟩ := length?_oneOf found
  exact ⟨h w mem, begins.length_le⟩

theorem takes_many (f : Char → Bool) : (many f).Takes 0 := by
  intro t n found
  obtain rfl := Option.some.inj found
  exact ⟨Nat.zero_le _, (List.takeWhile_prefix f).length_le⟩

theorem Takes.opt (h : p.Takes least) : p.opt.Takes 0 := by
  intro t n found
  obtain rfl := Option.some.inj found
  cases found : p.length? t with
  | none => simp
  | some n => exact ⟨Nat.zero_le _, (h t n found).2⟩

theorem Takes.append (hp : p.Takes least) (hq : q.Takes least') : (p ++ q).Takes (least + least') := by
  intro t n found
  obtain ⟨i, j, first, second, rfl⟩ := length?_append found
  have := hp _ _ first
  have := hq _ _ second
  simp only [List.length_drop] at this
  omega

theorem Takes.orElse (hp : p.Takes least) (hq : q.Takes least) : (p <|> q).Takes least := by
  intro t n found
  rcases length?_orElse found with found | found
  · exact hp t n found
  · exact hq t n found

theorem takes_flatGroup : flatGroup.Takes 2 := ((takes_word _).append (takes_many _)).append (takes_word _)

theorem erased_erase (h : p.Takes 1) (pos : Nat) (t : Text) : p.Erased (p.spans pos t).length t (p.erase t) := by
  rw [erase]
  fun_induction exchange p [] t generalizing pos with
  | case1 =>
    rw [spans]
    exact .nil
  | case2 c t none ih =>
    rw [spans, none]
    exact .keep none (ih (pos + 1))
  | case3 c t n found ih =>
    obtain ⟨one, le⟩ := h _ _ found
    have split : (c :: t).take n ++ t.drop (n - 1) = c :: t := by
      obtain ⟨m, rfl⟩ := Nat.exists_eq_add_of_le' one
      simp
    have length : ((c :: t).take n).length = n := List.length_take_of_le le
    rw [spans, found, List.nil_append, List.length_cons]
    have drop := Erased.drop (p := p) (m := (c :: t).take n) (t := t.drop (n - 1)) (by rw [split, length, found])
      (List.ne_nil_of_length_pos (by omega)) (ih (pos + 1 + (n - 1)))
    rwa [split] at drop

end Pattern

theorem Directive.erase_of_count {t : Text} (h : count t = 0) : erase t = t :=
  Pattern.erase_of_spans (List.length_eq_zero_iff.1 h)

theorem Directive.takes_pattern : pattern.Takes 1 := by
  have group := Pattern.takes_flatGroup
  have blanks : Pattern.blanks.Takes 0 := Pattern.takes_many _
  have numberWithin : numberWithin.Takes _ :=
    ((((Pattern.takes_word _).append blanks).append group).append blanks).append group
  have counterWithin : counterWithin.Takes _ :=
    (((((Pattern.takes_oneOf 1 (by decide)).append (Pattern.takes_word _).opt).append blanks).append group).append
      blanks).append group
  have setCounter : setCounter.Takes _ :=
    ((((((((Pattern.takes_word _).append blanks).append (Pattern.takes_word _)).append blanks).append
      (Pattern.takes_oneOf 1 (by decide))).append blanks).append (Pattern.takes_word _)).append
        blanks).append group
  exact (numberWithin.mono (by decide)).orElse ((counterWithin.mono (by decide)).orElse (setCounter.mono (by decide)))

/-- A text loses its directives, each where it is first found. -/
theorem Directive.erased_erase (t : Text) : pattern.Erased (count t) t (erase t) :=
  Pattern.erased_erase takes_pattern 0 t

end FloatFlattening
