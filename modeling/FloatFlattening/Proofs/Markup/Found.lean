import FloatFlattening.Proofs.Markup.Command
/-!
What a search finds. Each command found stands in the text as it was read, no two of them overlap,
and what is found at a place depends on the text from there on alone.
-/

namespace FloatFlattening.Command

variable {names : List Text} {pos : Nat} {t : Text} {c d : Command}

/-- The command at `i` in a text that begins at `pos`, with its name and what follows that. -/
structure StandsAt (names : List Text) (pos : Nat) (t : Text) (c : Command) (i : Nat)
    (w r : Text) : Prop where
  start : c.span.start = pos + i
  text : t.drop i = '\\' :: (w ++ r)
  word : Word w r
  mem : w ∈ names
  read : afterName? w (pos + i) ⟨pos + i + 1 + w.length, r⟩ = .ok (some c)

namespace StandsAt

variable {i : Nat} {w r : Text}

theorem drop {j : Nat} (h : StandsAt names (pos + j) (t.drop j) c i w r) :
    StandsAt names pos t c (j + i) w r where
  start := by rw [h.start, Nat.add_assoc]
  text := by rw [← List.drop_drop, h.text]
  word := h.word
  mem := h.mem
  read := by simpa [Nat.add_assoc] using h.read

theorem extend (h : StandsAt names pos t c i w r) (more : Text) :
    StandsAt names pos (t ++ more) c i w (r ++ more) where
  start := h.start
  text := by
    have : i ≤ t.length := by
      have := congrArg List.length h.text
      simp at this
      omega
    rw [List.drop_append_of_le_length this, h.text]
    simp
  word := by
    obtain ⟨-, -, k, -, hk⟩ := span_of_afterName? h.read
    refine h.word.append ?_ more
    rintro rfl
    simp at hk
  mem := h.mem
  read := afterName?_some_extend h.read more

theorem unique {names' : List Text} {w' r' : Text} (h : StandsAt names pos t c i w r)
    (h' : StandsAt names' pos t d i w' r') : c = d := by
  obtain ⟨rfl, rfl⟩ := h.word.inj h'.word (List.cons.inj (h.text.symm.trans h'.text)).2
  simpa [h.read] using h'.read

/-- A command ends just past a closing brace. -/
theorem stop (h : StandsAt names pos t c i w r) :
    ∃ n, i + 1 < n ∧ c.span.stop = pos + n ∧ t[n - 1]? = some '}' ∧ n ≤ t.length := by
  obtain ⟨-, -, k, hk, close⟩ := span_of_afterName? h.read
  have brace : t[i + (w.length + (k + 1))]? = some '}' := by
    rw [← List.getElem?_drop, h.text, ← Nat.add_assoc, List.getElem?_cons_succ,
      List.getElem?_append_right (Nat.le_add_right _ _), Nat.add_sub_cancel_left, close]
  have := (List.getElem?_eq_some_iff.1 brace).1
  refine ⟨i + (w.length + (k + 1)) + 1, by omega, by omega, by simpa using brace, by omega⟩

end StandsAt

theorem Word.escapes {w r : Text} (h : Word w r) : Text.escapes ('\\' :: w) = false := by
  obtain ⟨d, w', rfl⟩ := List.exists_cons_of_ne_nil h.ne_nil
  rw [Text.escapes_pair]
  apply Text.escapes_of_forall
  rintro x hx rfl
  exact absurd (h.letters _ (List.mem_cons_of_mem d hx)) (by decide)

/-- Nothing is escaped past the brace that closes the argument of a command. -/
theorem Word.escapes_take {w r : Text} {k : Nat} (h : Word w r) (close : r[k]? = some '}') :
    Text.escapes ('\\' :: (w ++ r.take (k + 1))) = false := by
  rw [← List.cons_append, Text.escapes_append h.escapes]
  exact Text.escapes_take_succ close (by decide)

theorem Word.drop {w r : Text} (n : Nat) : ('\\' :: (w ++ r)).drop (1 + w.length + n) = r.drop n := by
  rw [show 1 + w.length + n = w.length + n + 1 by omega, List.drop_succ_cons, ← List.drop_drop,
    List.drop_left]

theorem exists_standsAt (h : c ∈ (scan names pos t).found) :
    ∃ i w r, StandsAt names pos t c i w r ∧ Text.escapes (t.take i) = false := by
  -- What stands in a rest of the text stands in the text, and the rest begins unescaped.
  have later {pos : Nat} {t : Text} (j : Nat) (hj : Text.escapes (t.take j) = false)
      (ih : ∃ i w r, StandsAt names (pos + j) (t.drop j) c i w r ∧
        Text.escapes ((t.drop j).take i) = false) :
      ∃ i w r, StandsAt names pos t c i w r ∧ Text.escapes (t.take i) = false := by
    obtain ⟨i, w, r, hi, free⟩ := ih
    exact ⟨j + i, w, r, hi.drop, by rwa [← Text.escapes_drop_take hj]⟩
  induction pos, t using scan_induction names with
  | nil | lone => simp [Scan.done] at h
  | other pos x t hx ih =>
    rw [scan_other hx] at h
    exact later 1 (by simp [Text.escapes_cons hx]) (ih h)
  | symbol pos x t hx ih =>
    rw [scan_symbol hx] at h
    exact later 2 (by simp) (ih h)
  | mention pos w r hw hn ih =>
    rw [scan_mention hw hn] at h
    refine later (1 + w.length) (by simp [Nat.add_comm 1, hw.escapes]) ?_
    rw [← Nat.add_zero (1 + w.length), Word.drop, Nat.add_zero, ← Nat.add_assoc]
    exact ih h
  | stopped pos w r m hw hn hm => simp [scan_stopped hw hn hm, Scan.stop] at h
  | command pos w r d k hw hn ha start stop close ih =>
    rw [scan_command hw hn ha stop, Scan.found_cons] at h
    rcases List.mem_cons.1 h with rfl | h
    · exact ⟨0, w, r, ⟨by simp [start], rfl, hw, hn, by simpa using ha⟩, rfl⟩
    · have brace : ('\\' :: (w ++ r))[1 + w.length + k]? = some '}' := by
        rw [← List.head?_drop, Word.drop, List.head?_drop, close]
      refine later (1 + w.length + (k + 1)) (Text.escapes_take_succ brace (by decide)) ?_
      rw [Word.drop, show pos + (1 + w.length + (k + 1)) = d.span.stop by omega]
      exact ih h

theorem le_start (h : c ∈ (scan names pos t).found) : pos ≤ c.span.start := by
  obtain ⟨i, w, r, hi, -⟩ := exists_standsAt h
  exact hi.start ▸ Nat.le_add_right pos i

theorem start_lt_stop (h : c ∈ (scan names pos t).found) : c.span.start + 1 < c.span.stop := by
  obtain ⟨i, w, r, hi, -⟩ := exists_standsAt h
  obtain ⟨n, hn, stop, -⟩ := hi.stop
  have := hi.start
  omega

theorem stop_le (h : c ∈ (scan names pos t).found) : c.span.stop ≤ pos + t.length := by
  obtain ⟨i, w, r, hi, -⟩ := exists_standsAt h
  obtain ⟨n, -, stop, -, hn⟩ := hi.stop
  omega

theorem pairwise_found :
    (scan names pos t).found.Pairwise fun c d => c.span.stop ≤ d.span.start := by
  induction pos, t using scan_induction names with
  | nil | lone => simp [Scan.done]
  | other pos x t hx ih => rwa [scan_other hx]
  | symbol pos x t hx ih => rwa [scan_symbol hx]
  | mention pos w r hw hn ih => rwa [scan_mention hw hn]
  | stopped pos w r m hw hn hm => simp [scan_stopped hw hn hm, Scan.stop]
  | command pos w r d k hw hn ha start stop close ih =>
    rw [scan_command hw hn ha stop, Scan.found_cons, List.pairwise_cons]
    exact ⟨fun c hc => le_start hc, ih⟩

/-- A search begun anew past one of the commands found finds those after it. -/
theorem scan_past {before later : List Command} (h : (scan names pos t).found = before ++ c :: later) :
    scan names c.span.stop (t.drop (c.span.stop - pos)) = ⟨later, (scan names pos t).stopped⟩ := by
  have stop_gt {pos : Nat} {t : Text} (mem : c ∈ (scan names pos t).found) : pos < c.span.stop := by
    have := le_start mem
    have := start_lt_stop mem
    omega
  induction pos, t using scan_induction names generalizing before with
  | nil | lone => simp [Scan.done] at h
  | other pos x t hx ih =>
    rw [scan_other hx] at h ⊢
    have := stop_gt (h ▸ List.mem_append_right _ List.mem_cons_self)
    rw [← ih h, show c.span.stop - pos = c.span.stop - (pos + 1) + 1 by omega, List.drop_succ_cons]
  | symbol pos x t hx ih =>
    rw [scan_symbol hx] at h ⊢
    have := stop_gt (h ▸ List.mem_append_right _ List.mem_cons_self)
    rw [← ih h, show c.span.stop - pos = c.span.stop - (pos + 2) + 2 by omega, List.drop_succ_cons, List.drop_succ_cons]
  | mention pos w r hw hn ih =>
    rw [scan_mention hw hn] at h ⊢
    have := stop_gt (h ▸ List.mem_append_right _ List.mem_cons_self)
    rw [← ih h, show c.span.stop - pos = 1 + w.length + (c.span.stop - (pos + 1 + w.length)) by omega, Word.drop]
  | stopped pos w r m hw hn hm => simp [scan_stopped hw hn hm, Scan.stop] at h
  | command pos w r d k hw hn ha start stop close ih =>
    have past (n : Nat) : (r.drop (k + 1)).drop n = ('\\' :: (w ++ r)).drop (d.span.stop - pos + n) := by
      rw [stop, show pos + 1 + w.length + (k + 1) - pos + n = 1 + w.length + (k + 1 + n) by omega, Word.drop,
        List.drop_drop]
    rw [scan_command hw hn ha stop, Scan.found_cons] at h
    rw [scan_command hw hn ha stop, Scan.stopped_cons]
    cases before with
    | nil =>
      obtain ⟨rfl, rfl⟩ := List.cons.inj h
      have past : r.drop (k + 1) = ('\\' :: (w ++ r)).drop (d.span.stop - pos) := past 0
      rw [← past]
    | cons e before =>
      obtain ⟨rfl, h'⟩ : d = e ∧ _ = before ++ c :: later := List.cons.inj h
      have := stop_gt (h' ▸ List.mem_append_right before List.mem_cons_self)
      rw [← ih h', past, show d.span.stop - pos + (c.span.stop - d.span.stop) = c.span.stop - pos by omega]

/-! Searches of parts of one text. -/

variable {names' : List Text} {s s' : Span}

theorem all_eq_inSpan (t : Text) (names : List Text) :
    all t names = inSpan t ⟨0, t.length⟩ names := by
  simp [all, inSpan, Text.slice]

theorem stands_of_mem_inSpan (h : c ∈ (inSpan t s names).found) :
    ∃ w r, StandsAt names 0 t c c.span.start w r := by
  obtain ⟨i, w, r, hi, -⟩ := exists_standsAt h
  have whole : StandsAt names 0 (t.take s.stop) c (s.start + i) w r :=
    StandsAt.drop (by simpa [Text.slice] using hi)
  refine ⟨w, r ++ t.drop s.stop, ?_⟩
  have := whole.extend (t.drop s.stop)
  rwa [List.take_append_drop, ← hi.start] at this

theorem eq_of_mem_inSpan (hc : c ∈ (inSpan t s names).found) (hd : d ∈ (inSpan t s' names').found)
    (h : c.span.start = d.span.start) : c = d := by
  obtain ⟨w, r, hc⟩ := stands_of_mem_inSpan hc
  obtain ⟨w', r', hd⟩ := stands_of_mem_inSpan hd
  exact hc.unique (h ▸ hd)

theorem name_mem_of_mem_inSpan (h : c ∈ (inSpan t s names).found) : c.name ∈ names := by
  obtain ⟨i, w, r, hi, -⟩ := exists_standsAt h
  rw [(span_of_afterName? hi.read).1]
  exact hi.mem

/-- Commands of different names begin at different places. -/
theorem start_ne_of_mem_inSpan (hc : c ∈ (inSpan t s names).found) (hd : d ∈ (inSpan t s' names').found)
    (apart : ∀ name ∈ names, name ∉ names') : c.span.start ≠ d.span.start := fun start => by
  have name := name_mem_of_mem_inSpan hd
  rw [← eq_of_mem_inSpan hc hd start] at name
  exact apart c.name (name_mem_of_mem_inSpan hc) name

theorem bounds_of_mem_inSpan (h : c ∈ (inSpan t s names).found) :
    s.start ≤ c.span.start ∧ c.span.stop ≤ s.stop := by
  have := le_start h
  have := start_lt_stop h
  have := stop_le h
  simp at this
  omega

/-- A command that is found is not escaped. -/
theorem escapes_of_mem_all (h : c ∈ (all t names).found) :
    Text.escapes (t.take c.span.start) = false := by
  obtain ⟨i, w, r, hi, free⟩ := exists_standsAt h
  rwa [hi.start, Nat.zero_add]

end FloatFlattening.Command
