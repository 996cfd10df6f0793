import FloatFlattening.Proofs.Markup.Seam
import FloatFlattening.Proofs.Markup.Usage
/-!
Searches of a range. A search that begins where a command ends and is cut off where none goes on finds what a
search of the whole text finds there.
-/

namespace FloatFlattening.Command

variable {names : List Text} {pos start : Nat} {w r s t : Text} {c : Command} {b : Span}

/-- What is read of a command does not depend on the text past it. -/
theorem afterName?_restrict (h : afterName? w start ⟨pos, r ++ t⟩ = .ok (some c))
    (le : c.span.stop ≤ pos + r.length) : afterName? w start ⟨pos, r⟩ = .ok (some c) := by
  obtain ⟨groups, c', v, n, opens, rfl⟩ := afterName?_eq_some_iff.1 h
  obtain ⟨options, rest, between, rfl, length⟩ := Arguments.opens_iff.1 opens
  obtain ⟨argument, after, braced, rfl, rfl⟩ := braceLength?_eq_some_iff.1 length
  obtain ⟨text, skip⟩ := Cursor.skipStar_append ⟨pos, r ++ t⟩
  rw [rest] at text
  dsimp only at text skip
  simp only [ofGroup, skip, Cursor.pos_skip] at le
  -- All of it stands in the first part, and begins alike there.
  obtain ⟨after', text'⟩ : ∃ after',
      r = star ((r ++ t).head? = some '*') ++ (options ++ '{' :: (argument ++ '}' :: after')) := by
    generalize star ((r ++ t).head? = some '*') = star? at text le
    have front : star? ++ (options ++ '{' :: (argument ++ ['}'])) <+: r := by
      refine List.prefix_of_prefix_length_le ⟨after, ?_⟩ (List.prefix_append r t) ?_
      · simpa using text.symm
      · simp only [List.length_append, List.length_cons, List.length_nil]
        omega
    obtain ⟨after', rfl⟩ := front
    exact ⟨after', by simp⟩
  have head : (r ++ t).head? = r.head? := List.head?_append_of_ne_nil r (by rw [text']; simp)
  obtain ⟨text₀, skip₀⟩ := Cursor.skipStar_append ⟨pos, r⟩
  dsimp only at text₀ skip₀
  rw [head] at text' skip
  refine afterName?_eq_some_iff.2 ⟨groups, _, _, argument.length, Arguments.opens_iff.2
    ⟨options, (List.append_cancel_left (text₀.symm.trans text')), between, rfl,
      braceLength?_eq_some_iff.2 ⟨argument, after', braced, rfl, rfl⟩⟩, ?_⟩
  simp [ofGroup, skip, skip₀, head]

/-- No command ends in letters that follow a backslash. -/
theorem lt_stop_of_letters (letters : ∀ x ∈ w, x.isAlpha) (h : c ∈ (scan names pos ('\\' :: (w ++ t))).found) :
    pos + ('\\' :: w).length < c.span.stop := by
  obtain ⟨i, v, r, stands, -⟩ := exists_standsAt h
  obtain ⟨n, lt, stop, close, -⟩ := stands.stop
  by_contra ge
  have inside : n - 1 < ('\\' :: w).length := by omega
  rw [← List.cons_append, List.getElem?_append_left inside] at close
  rcases List.mem_cons.1 (List.mem_of_getElem? close) with eq | mem
  · exact absurd eq (by decide)
  · exact absurd (letters _ mem) (by decide)

/-- A mention in the first part of a text is one in the whole, if no command found goes over the cut. -/
theorem mention_append (hw : Word w (r ++ t)) (mem : w ∈ names)
    (mention : afterName? w pos ⟨pos + 1 + w.length, r⟩ = .ok none)
    (whole : (scan names pos ('\\' :: (w ++ (r ++ t)))).stopped = none)
    (uncut : ∀ c ∈ (scan names pos ('\\' :: (w ++ (r ++ t)))).found,
      c.span.stop ≤ pos + ('\\' :: (w ++ r)).length ∨ pos + ('\\' :: (w ++ r)).length ≤ c.span.start) :
    afterName? w pos ⟨pos + 1 + w.length, r ++ t⟩ = .ok none := by
  cases ha : afterName? w pos ⟨pos + 1 + w.length, r ++ t⟩ with
  | error m => simp [scan_stopped hw mem ha, Scan.stop] at whole
  | ok c? =>
    cases c? with
    | none => rfl
    | some c =>
      obtain ⟨-, start, k, stop, -⟩ := span_of_afterName? ha
      have fits := uncut c (by rw [scan_command hw mem ha stop]; exact List.mem_cons_self)
      simp only [List.length_cons, List.length_append] at fits
      simp [afterName?_restrict ha (by omega)] at mention

/-- A search of the first part of a text finds the commands that end there. -/
theorem scan_found_eq_filter (whole : (scan names pos (s ++ t)).stopped = none)
    (part : (scan names pos s).stopped = none)
    (uncut : ∀ c ∈ (scan names pos (s ++ t)).found,
      c.span.stop ≤ pos + s.length ∨ pos + s.length ≤ c.span.start) :
    (scan names pos s).found = (scan names pos (s ++ t)).found.filter (·.span.stop ≤ pos + s.length) := by
  -- Where the first part is at its end, nothing found ends in it.
  have done {s : Text} {pos : Nat} (past : ∀ c ∈ (scan names pos (s ++ t)).found, pos + s.length < c.span.stop) :
      [] = (scan names pos (s ++ t)).found.filter (·.span.stop ≤ pos + s.length) :=
    (List.filter_eq_nil_iff.2 fun c hc => by simpa using past c hc).symm
  induction pos, s using scan_induction names with
  | nil pos =>
    rw [scan_nil]
    refine done fun c hc => ?_
    have := le_start hc
    have := start_lt_stop hc
    simp only [List.length_nil]
    omega
  | lone pos =>
    rw [scan_lone]
    exact done fun c hc => lt_stop_of_letters (w := []) (by simp) hc
  | other pos x s hx ih =>
    have pos' : pos + (x :: s).length = pos + 1 + s.length := by simp; omega
    rw [List.cons_append, scan_other hx] at whole uncut ⊢
    rw [pos'] at uncut ⊢
    rw [scan_other hx] at part ⊢
    exact ih whole part uncut
  | symbol pos x s hx ih =>
    have pos' : pos + ('\\' :: x :: s).length = pos + 2 + s.length := by simp; omega
    rw [List.cons_append, List.cons_append, scan_symbol hx] at whole uncut ⊢
    rw [pos'] at uncut ⊢
    rw [scan_symbol hx] at part ⊢
    exact ih whole part uncut
  | mention pos w r hw hn ih =>
    rw [scan_mention hw hn] at part ⊢
    cases r with
    | nil =>
      rw [scan_nil, List.append_nil]
      exact done fun c hc => lt_stop_of_letters hw.letters hc
    | cons x r =>
      have longer : Word w (x :: r ++ t) := hw.append (List.cons_ne_nil x r) t
      have pos' : pos + ('\\' :: (w ++ x :: r)).length = pos + 1 + w.length + (x :: r).length := by simp; omega
      rw [List.cons_append, List.append_assoc] at whole uncut ⊢
      have mention : w ∈ names → _ := fun mem => mention_append longer mem (hn mem) whole uncut
      rw [scan_mention longer mention] at whole uncut ⊢
      rw [pos'] at uncut ⊢
      exact ih whole part uncut
  | stopped pos w r m hw hn hm => simp [scan_stopped hw hn hm, Scan.stop] at part
  | command pos w r d k hw hn ha start stop close ih =>
    have inside := (List.getElem?_eq_some_iff.1 close).1
    have longer : Word w (r ++ t) := hw.append (List.length_pos_iff.1 (by omega)) t
    have pos' : pos + ('\\' :: (w ++ r)).length = d.span.stop + (r.drop (k + 1)).length := by
      simp
      omega
    rw [List.cons_append, List.append_assoc, scan_command longer hn (afterName?_some_extend ha t) stop,
      List.drop_append_of_le_length (by omega)] at whole uncut ⊢
    rw [pos'] at uncut ⊢
    rw [scan_command hw hn ha stop] at part ⊢
    rw [Scan.found_cons, Scan.found_cons, List.filter_cons_of_pos (by simp),
      ih whole part fun c hc => uncut c (List.mem_cons_of_mem d hc)]

/-- A search of a range that begins where a command ends, if not with the text, and cuts no command finds the
commands of the whole text that lie in it. -/
theorem found_inSpan_eq_filter (whole : (all t names).stopped = none) (part : (inSpan t b names).stopped = none)
    (edge : b.start = 0 ∨ ∃ names', ∃ d ∈ (all t names').found, d.span.stop = b.start)
    (uncut : ∀ c ∈ (all t names).found, ∀ i ∈ [b.start, b.stop], ¬ (c.span.start < i ∧ i < c.span.stop)) :
    (inSpan t b names).found = (all t names).found.filter (b.Covers ·.span) := by
  simp only [List.forall_mem_cons] at uncut
  obtain ⟨inside, seam⟩ : b.start ≤ t.length ∧ Seam (t.slice ⟨0, b.start⟩) (t.drop b.start) := by
    rcases edge with zero | ⟨names', d, hd, stop⟩
    · exact ⟨by omega, by simp [zero, Text.slice], .inl (by simp [zero, Text.slice])⟩
    · have := stop_le hd
      have := start_lt_stop hd
      rw [all_eq_inSpan] at hd
      exact ⟨by omega, stop ▸ seam_stop hd (by omega) _⟩
  -- What the whole text has before the range lies before it, and the range begins what is searched then.
  rw [all_eq_inSpan] at whole uncut ⊢
  obtain ⟨before, eq, le⟩ := exists_inSpan_eq (Nat.zero_le _) inside whole seam fun c hc => by
    have := (uncut c hc).1
    omega
  have earlier : before.filter (b.Covers ·.span) = [] := by
    refine List.filter_eq_nil_iff.2 fun c hc => ?_
    have := start_lt_stop (eq ▸ List.mem_append_left _ hc : c ∈ (inSpan t ⟨0, t.length⟩ names).found)
    have := le c hc
    rw [decide_eq_true_eq, Span.Covers]
    omega
  rw [eq] at whole uncut ⊢
  have slice : t.slice b = (t.drop b.start).take (b.stop - b.start) := List.drop_take
  have rest : inSpan t ⟨b.start, t.length⟩ names =
      scan names b.start (t.slice b ++ (t.drop b.start).drop (b.stop - b.start)) := by
    rw [slice, List.take_append_drop, inSpan, Text.slice_eq_drop]
  rw [rest] at whole uncut ⊢
  have bounds (c) (hc : c ∈ (scan names b.start (t.slice b ++ (t.drop b.start).drop (b.stop - b.start))).found) :
      b.start ≤ c.span.start ∧ c.span.start < c.span.stop ∧ c.span.stop ≤ t.length := by
    have := le_start hc
    have := start_lt_stop hc
    have := stop_le hc
    rw [slice, List.take_append_drop, List.length_drop] at this
    omega
  have ends : b.start + (t.slice b).length = max b.start (min b.stop t.length) := by
    simp
    omega
  have found := scan_found_eq_filter whole part fun c hc => by
    have := bounds c hc
    have := (uncut c (List.mem_append_right before hc)).2.1
    omega
  rw [Scan.found_append, List.filter_append, earlier, List.nil_append, inSpan, found]
  refine List.filter_congr fun c hc => ?_
  have := bounds c hc
  rw [ends, decide_eq_decide, Span.Covers]
  omega

theorem found_inSpan_second :
    let t : Text := "\\ref\x7ba\x7d\\ref\x7bb\x7d \\ref\x7bc\x7d"
    (inSpan t ⟨7, 15⟩ ["ref"]).found = (all t ["ref"]).found.filter ((⟨7, 15⟩ : Span).Covers ·.span) ∧
      (inSpan t ⟨7, 15⟩ ["ref"]).found.map (·.span) = [⟨7, 14⟩] := by
  intro t
  have edge : ∃ d ∈ (all t ["ref"]).found, d.span.stop = 7 := by decide +kernel
  exact ⟨found_inSpan_eq_filter (by decide +kernel) (by decide +kernel) (.inr ⟨["ref"], edge⟩) (by decide +kernel),
    by decide +kernel⟩

end FloatFlattening.Command
