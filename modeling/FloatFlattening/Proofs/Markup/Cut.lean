import FloatFlattening.Proofs.Markup.Environment
import FloatFlattening.Proofs.Text
/-!
Parts of a part of a text. One that can be cut out is searched by itself as it is with what is around
it, as long as nothing is found across its ends.
-/

namespace FloatFlattening

variable {t : Text} {r s : Span} {names : List Text}

theorem Text.slice_cut (t : Text) {r : Span} {i : Nat} (start : r.start ≤ i) (stop : i ≤ r.stop) :
    (t.slice r).take (i - r.start) = t.slice ⟨r.start, i⟩ ∧
      (t.slice r).drop (i - r.start) = t.slice ⟨i, r.stop⟩ := by
  rw [slice, slice, slice, List.take_drop, List.take_take, List.drop_drop, Nat.add_sub_cancel' start,
    Nat.min_eq_left stop]
  exact ⟨rfl, rfl⟩

/-- A part of a part of a text that can be cut out of it. -/
structure Span.Cut (t : Text) (r s : Span) : Prop where
  start_le : r.start ≤ s.start
  le : s.start ≤ s.stop
  stop_le : s.stop ≤ r.stop
  left : Seam (t.slice ⟨r.start, s.start⟩) (t.slice ⟨s.start, r.stop⟩)
  right : Seam (t.slice s) (t.slice ⟨s.stop, r.stop⟩)

namespace Command

variable {c : Command}

/-- Where a command begins, what comes before it ends. -/
theorem splits_of_mem_inSpan (h : c ∈ (inSpan t r names).found) :
    Text.escapes (t.slice ⟨r.start, c.span.start⟩) = false ∧
      (t.slice ⟨c.span.start, r.stop⟩).head? = some '\\' := by
  obtain ⟨i, w, u, hi, free⟩ := exists_standsAt h
  have bounds := bounds_of_mem_inSpan h
  have := start_lt_stop h
  obtain ⟨before, after⟩ := t.slice_cut bounds.1 (by omega : c.span.start ≤ r.stop)
  rw [← before, ← after, show c.span.start - r.start = i by rw [hi.start]; omega, hi.text]
  exact ⟨free, rfl⟩

theorem goesOn_of_mem_inSpan (h : c ∈ (inSpan t r names).found) :
    ∀ x ∈ (t.slice ⟨c.span.start, r.stop⟩).head?, Text.goesOn x = false := by
  rw [(splits_of_mem_inSpan h).2]
  rintro _ ⟨⟩
  rfl

theorem cut_of_mem_inSpan (h : c ∈ (inSpan t r names).found) : Span.Cut t r c.span := by
  have bounds := bounds_of_mem_inSpan h
  have lt : c.span.start < c.span.stop := (Nat.lt_succ_self _).trans (start_lt_stop h)
  exact ⟨bounds.1, lt.le, bounds.2, .of_head (splits_of_mem_inSpan h).1 (goesOn_of_mem_inSpan h),
    seam_stop h lt _⟩

/-- What is found in a part that can be cut out is what is found there with the text around it. -/
theorem found_eq_filter (cut : Span.Cut t r s) (length : r.stop ≤ t.length)
    (whole : (inSpan t r names).stopped = none) (part : (inSpan t s names).stopped = none)
    (apart : ∀ c ∈ (inSpan t r names).found, s.Covers c.span ∨ c.span.stop ≤ s.start ∨ s.stop ≤ c.span.start) :
    (inSpan t s names).found = (inSpan t r names).found.filter fun c => s.Covers c.span := by
  obtain ⟨start_le, le, stop_le, left, right⟩ := cut
  have first : t.slice ⟨r.start, s.start⟩ ++ t.slice ⟨s.start, r.stop⟩ = t.slice r :=
    t.slice_append start_le (le.trans stop_le) length
  have later : t.slice s ++ t.slice ⟨s.stop, r.stop⟩ = t.slice ⟨s.start, r.stop⟩ :=
    t.slice_append le stop_le length
  have hstart : r.start + (t.slice ⟨r.start, s.start⟩).length = s.start := by simp; omega
  have hstop : s.start + (t.slice s).length = s.stop := by simp; omega
  -- The search goes through what is before the part, the part itself and what follows, one by one.
  obtain ⟨before, found, early⟩ := exists_scan_eq (by rwa [first]) left fun c hc => by
    rw [first] at hc
    have := start_lt_stop hc
    rw [hstart]
    rcases apart c hc with covers | before | after
    · exact .inl covers.1
    · exact .inr before
    · exact .inl (le.trans after)
  rw [first, hstart, ← later, scan_append part right, hstop] at found
  rw [hstart] at early
  have parts : (inSpan t r names).found = before ++ ((inSpan t s names).found ++
      (inSpan t ⟨s.stop, r.stop⟩ names).found) := congrArg Scan.found found
  have lt : ∀ c ∈ (inSpan t r names).found, c.span.start + 1 < c.span.stop := fun c hc => start_lt_stop hc
  rw [parts] at lt ⊢
  rw [List.filter_append, List.filter_append, List.filter_eq_nil_iff.2, List.filter_eq_self.2,
    List.filter_eq_nil_iff.2, List.nil_append, List.append_nil]
  · intro c hc inside
    have after : s.stop ≤ c.span.start := (bounds_of_mem_inSpan hc).1
    have := lt c (by simp [hc])
    have := (of_decide_eq_true inside).2
    omega
  · exact fun c hc => decide_eq_true (bounds_of_mem_inSpan hc)
  · intro c hc inside
    have := early c hc
    have := lt c (by simp [hc])
    have := (of_decide_eq_true inside).1
    omega

end Command

namespace Environment

theorem cut_of_mem_inSpan {e : Environment} (h : e ∈ (inSpan t r names).found) : Span.Cut t r e.body := by
  obtain ⟨b, f, sub, -, body⟩ := joins_of_mem_pair h
  have hb := sub.subset List.mem_cons_self
  have hf := sub.subset (List.mem_cons_of_mem b (List.mem_singleton_self f))
  have le := List.rel_of_pairwise_cons (Command.pairwise_found.sublist sub) (List.mem_singleton_self f)
  have bounds := Command.bounds_of_mem_inSpan hb
  have bounds' := Command.bounds_of_mem_inSpan hf
  have := Command.start_lt_stop hb
  have := Command.start_lt_stop hf
  have left {u : Text} : Seam (t.slice ⟨r.start, b.span.stop⟩) u := Command.seam_stop hb (by omega) u
  rw [body]
  refine ⟨by dsimp only; omega, le, by dsimp only; omega, left, .of_head ?_ (Command.goesOn_of_mem_inSpan hf)⟩
  have stop := Command.stop_le hf
  have free := (Command.splits_of_mem_inSpan hf).1
  rw [Text.length_slice] at stop
  rwa [← t.slice_append (by omega) le (by omega), Text.escapes_append (left (u := [])).free] at free

end Environment

end FloatFlattening
