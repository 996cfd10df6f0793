import FloatFlattening.Markup.Environment
import FloatFlattening.Proofs.Markup.Seam
/-!
Where environments lie. Each one found lies between a `\begin` and an `\end` found, and no two of
them overlap.
-/

namespace FloatFlattening.Environment

variable {names : List Text} {stopped : Option Malformed} {cs : List Command} {t : Text}

theorem isSuffix_ending? {name : Text} {depth : Nat} {f : Command} {rest : List Command}
    (h : ending? name depth cs = some (f, rest)) : f :: rest <:+ cs := by
  fun_induction ending? name depth cs with
  | case1 => simp at h
  | case2 _ _ _ _ ih | case3 _ _ _ _ _ ih | case5 _ _ _ _ _ ih =>
    exact (ih h).trans (List.suffix_cons _ _)
  | case4 =>
    obtain ⟨rfl, rfl⟩ := by simpa using h
    exact List.suffix_refl _

/-- An environment from one command of a list to a later one. -/
def Joins (cs : List Command) (e : Environment) : Prop :=
  ∃ b f, [b, f].Sublist cs ∧ e.span = ⟨b.span.start, f.span.stop⟩ ∧
    e.body = ⟨b.span.stop, f.span.start⟩

theorem Joins.mono {cs' : List Command} {e : Environment} (h : Joins cs e) (k : cs.Sublist cs') :
    Joins cs' e := by
  obtain ⟨b, f, sub, hs⟩ := h
  exact ⟨b, f, sub.trans k, hs⟩

theorem joins_of_mem_pair {e : Environment} (h : e ∈ (pair names stopped cs).found) :
    Joins cs e := by
  fun_induction pair names stopped cs with
  | case1 => simp at h
  | case2 c cs hc name f rest hf ih =>
    have suffix := isSuffix_ending? hf
    rcases List.mem_cons.1 h with rfl | h
    · exact ⟨c, f, (List.singleton_sublist.2 (suffix.mem List.mem_cons_self)).cons_cons c, rfl, rfl⟩
    · exact (ih h).mono ((List.sublist_cons_self f rest).trans (suffix.sublist.trans
        (List.sublist_cons_self c cs)))
  | case3 => simp [Scan.stop] at h
  | case4 c cs hc ih => exact (ih h).mono (List.sublist_cons_self c cs)

theorem pairwise_pair (h : cs.Pairwise fun c d => c.span.stop ≤ d.span.start) :
    (pair names stopped cs).found.Pairwise fun e e' => e.span.stop ≤ e'.span.start := by
  fun_induction pair names stopped cs with
  | case1 => exact .nil
  | case2 c cs hc name f rest hf ih =>
    have later := h.of_cons.sublist (isSuffix_ending? hf).sublist
    refine List.pairwise_cons.2 ⟨fun e he => ?_, ih later.of_cons⟩
    obtain ⟨b, g, sub, span, -⟩ := joins_of_mem_pair he
    rw [span]
    exact List.rel_of_pairwise_cons later (sub.subset List.mem_cons_self)
  | case3 => exact .nil
  | case4 c cs hc ih => exact ih h.of_cons

/-! Environments of a text. -/

/-- The `\begin` and `\end` commands of a text. -/
def delimiters (t : Text) : List Command := (Command.all t ["begin", "end"]).found

theorem bounds_of_mem_inSpan {s : Span} {e : Environment} (h : e ∈ (inSpan t s names).found) :
    s.start ≤ e.span.start ∧ e.span.start < e.span.stop ∧ e.span.stop ≤ s.stop := by
  obtain ⟨b, f, sub, span, -⟩ := joins_of_mem_pair h
  have hb := sub.subset List.mem_cons_self
  have hf := sub.subset (List.mem_cons_of_mem b (List.mem_singleton_self f))
  have := Command.bounds_of_mem_inSpan hb
  have := Command.bounds_of_mem_inSpan hf
  have := Command.start_lt_stop hb
  have := Command.start_lt_stop hf
  have := List.rel_of_pairwise_cons (Command.pairwise_found.sublist sub) (List.mem_singleton_self f)
  simp only [span]
  omega

theorem body_le_of_mem_inSpan {s : Span} {e : Environment} (h : e ∈ (inSpan t s names).found) :
    e.body.start ≤ e.body.stop := by
  obtain ⟨b, f, sub, -, body⟩ := joins_of_mem_pair h
  rw [body]
  exact List.rel_of_pairwise_cons (Command.pairwise_found.sublist sub) (List.mem_singleton_self f)

theorem body_within_of_mem_inSpan {s : Span} {e : Environment} (h : e ∈ (inSpan t s names).found) :
    e.span.start < e.body.start ∧ e.body.stop < e.span.stop := by
  obtain ⟨b, f, sub, span, body⟩ := joins_of_mem_pair h
  rw [span, body]
  have := Command.start_lt_stop (sub.subset List.mem_cons_self)
  have := Command.start_lt_stop (sub.subset (List.mem_cons_of_mem b (List.mem_singleton_self f)))
  dsimp only
  omega

theorem all_eq_inSpan (t : Text) (names : List Text) : all t names = inSpan t ⟨0, t.length⟩ names := by
  rw [all, Command.all_eq_inSpan, inSpan]

theorem start_lt_stop {e : Environment} (h : e ∈ (all t names).found) : e.span.start < e.span.stop := by
  rw [all_eq_inSpan] at h
  exact (bounds_of_mem_inSpan h).2.1

/-- How an environment lies in a text. -/
structure LiesIn (t : Text) (e : Environment) : Prop where
  begins : ∃ b ∈ delimiters t, b.span = ⟨e.span.start, e.body.start⟩
  ends : ∃ f ∈ delimiters t, f.span = ⟨e.body.stop, e.span.stop⟩
  body_le : e.body.start ≤ e.body.stop

theorem liesIn_of_mem_all {e : Environment} (h : e ∈ (all t names).found) : LiesIn t e := by
  obtain ⟨b, f, sub, span, body⟩ := joins_of_mem_pair h
  refine ⟨⟨b, sub.subset List.mem_cons_self, by simp [span, body]⟩,
    ⟨f, sub.subset (by simp), by simp [span, body]⟩, ?_⟩
  rw [body]
  exact List.rel_of_pairwise_cons (Command.pairwise_found.sublist sub) (List.mem_singleton_self f)

theorem pairwise_all (t : Text) (names : List Text) :
    (all t names).found.Pairwise fun e e' => e.span.stop ≤ e'.span.start :=
  pairwise_pair Command.pairwise_found

namespace LiesIn

variable {e : Environment}

theorem start_lt (h : LiesIn t e) : e.span.start < e.body.start := by
  obtain ⟨b, hb, span⟩ := h.begins
  have := Command.start_lt_stop hb
  simp only [span] at this
  omega

theorem lt_stop (h : LiesIn t e) : e.body.stop < e.span.stop := by
  obtain ⟨f, hf, span⟩ := h.ends
  have := Command.start_lt_stop hf
  simp only [span] at this
  omega

theorem stop_le (h : LiesIn t e) : e.span.stop ≤ t.length := by
  obtain ⟨f, hf, span⟩ := h.ends
  have := Command.stop_le hf
  simpa [span] using this

theorem holds_span (h : LiesIn t e) {pos : Nat} (k : e.body.Holds pos) : e.span.Holds pos := by
  have := h.start_lt
  have := h.lt_stop
  obtain ⟨start, stop⟩ := k
  exact ⟨by omega, by omega⟩

theorem drop_start (h : LiesIn t e) : ∃ u, t.drop e.span.start = '\\' :: u := by
  obtain ⟨b, hb, span⟩ := h.begins
  obtain ⟨i, w, r, hi, -⟩ := Command.exists_standsAt hb
  have start := hi.start
  rw [span, Nat.zero_add] at start
  obtain rfl : e.span.start = i := start
  exact ⟨w ++ r, hi.text⟩

theorem escapes_start (h : LiesIn t e) : Text.escapes (t.take e.span.start) = false := by
  obtain ⟨b, hb, span⟩ := h.begins
  simpa [span] using Command.escapes_of_mem_all hb

/-- The body begins past a closing brace. -/
theorem seam_start (h : LiesIn t e) (u : Text) : Seam (t.take e.body.start) u := by
  obtain ⟨b, hb, span⟩ := h.begins
  obtain ⟨i, w, r, hi, -⟩ := Command.exists_standsAt hb
  obtain ⟨n, hn, stop, close, hle⟩ := hi.stop
  rw [span, Nat.zero_add] at stop
  obtain rfl : e.body.start = n := stop
  refine Seam.of_getLast? (x := '}') ?_ (by decide) (by decide)
  rw [List.getLast?_eq_getElem?, List.length_take, Nat.min_eq_left hle,
    List.getElem?_take_of_lt (by omega), close]

/-- The body ends at a backslash. -/
theorem drop_stop (h : LiesIn t e) : ∃ u, t.drop e.body.stop = '\\' :: u := by
  obtain ⟨f, hf, span⟩ := h.ends
  obtain ⟨i, w, r, hi, -⟩ := Command.exists_standsAt hf
  have start := hi.start
  rw [span, Nat.zero_add] at start
  obtain rfl : e.body.stop = i := start
  exact ⟨w ++ r, hi.text⟩

theorem goesOn_stop (h : LiesIn t e) : ∀ c ∈ (t.drop e.body.stop).head?, Text.goesOn c = false := by
  obtain ⟨u, hu⟩ := h.drop_stop
  rw [hu]
  rintro _ ⟨⟩
  rfl

theorem seam_stop (h : LiesIn t e) : Seam (t.slice e.body) (t.drop e.body.stop) := by
  refine .of_head ?_ h.goesOn_stop
  obtain ⟨f, hf, span⟩ := h.ends
  have free := Command.escapes_of_mem_all hf
  rw [span] at free
  have := h.body_le
  have before := (h.seam_start []).free
  rw [← List.take_append_drop e.body.start (t.take e.body.stop), List.take_take,
    Nat.min_eq_left this, Text.escapes_append before] at free
  exact free

/-- What is found in the body, when nothing found in the text lies over its beginning. -/
theorem exists_all_eq (h : LiesIn t e) (names : List Text)
    (whole : (Command.all t names).stopped = none)
    (part : (Command.inSpan t e.body names).stopped = none)
    (apart : ∀ c ∈ (Command.all t names).found,
      e.body.start ≤ c.span.start ∨ c.span.stop ≤ e.body.start) :
    ∃ before after,
      (Command.all t names).found = before ++ ((Command.inSpan t e.body names).found ++ after) ∧
        (∀ c ∈ before, c.span.stop ≤ e.body.start) ∧ ∀ c ∈ after, e.body.stop ≤ c.span.start :=
  Command.exists_all_eq h.body_le (h.lt_stop.le.trans h.stop_le) whole part (h.seam_start _)
    h.seam_stop apart

theorem exists_inSpan_holds (h : LiesIn t e) (names : List Text) {c : Command}
    (hc : c ∈ (Command.all t names).found)
    (inside : e.body.Covers c.span) (part : (Command.inSpan t e.body names).stopped = none) :
    ∃ d ∈ (Command.inSpan t e.body names).found, d.span.Holds c.span.start :=
  Command.exists_inSpan_holds hc inside part (h.seam_start []).free h.goesOn_stop

end LiesIn

end FloatFlattening.Environment
