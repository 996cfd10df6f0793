import FloatFlattening.Markup.Mark
import FloatFlattening.Proofs.Markup.Environment
/-!
The marks of a text and of its parts. A mark is known by where it begins.
-/

namespace FloatFlattening.Mark

variable {t : Text} {s s' : Span} {m m' : Mark} {e : Environment}

theorem all_eq_inSpan (t : Text) : all t = inSpan t ⟨0, t.length⟩ := by
  rw [all, inSpan, Command.all_eq_inSpan]

theorem exists_command (h : m ∈ (inSpan t s).found) :
    ∃ c ∈ (Command.inSpan t s ["label"]).found, ofCommand t c = m :=
  List.mem_map.1 h

theorem eq_of_mem_inSpan (hm : m ∈ (inSpan t s).found) (hm' : m' ∈ (inSpan t s').found)
    (h : m.span.start = m'.span.start) : m = m' := by
  obtain ⟨c, hc, rfl⟩ := exists_command hm
  obtain ⟨d, hd, rfl⟩ := exists_command hm'
  rw [Command.eq_of_mem_inSpan hc hd h]

theorem eq_of_mem_all (hm : m ∈ (all t).found) (hm' : m' ∈ (inSpan t s).found)
    (h : m.span.start = m'.span.start) : m = m' :=
  eq_of_mem_inSpan (all_eq_inSpan t ▸ hm) hm' h

theorem bounds_of_mem_inSpan (h : m ∈ (inSpan t s).found) :
    s.start ≤ m.span.start ∧ m.span.start < m.span.stop ∧ m.span.stop ≤ s.stop := by
  obtain ⟨c, hc, rfl⟩ := exists_command h
  have := Command.bounds_of_mem_inSpan hc
  have := Command.start_lt_stop hc
  simp only [ofCommand]
  omega

theorem holds_of_mem_inSpan (h : m ∈ (inSpan t s).found) : s.Holds m.span.start := by
  have := bounds_of_mem_inSpan h
  exact ⟨this.1, by omega⟩

theorem pairwise_inSpan : (inSpan t s).found.Pairwise fun m m' => m.span.stop ≤ m'.span.start :=
  List.Pairwise.map _ (fun _ _ h => h) Command.pairwise_found

theorem nodup_inSpan : (inSpan t s).found.Nodup := by
  refine pairwise_inSpan.imp_of_mem fun hm _ apart eq => ?_
  have := bounds_of_mem_inSpan hm
  rw [← eq] at apart
  omega

theorem pairwise_all : (all t).found.Pairwise fun m m' => m.span.stop ≤ m'.span.start :=
  all_eq_inSpan t ▸ pairwise_inSpan

theorem exists_all_eq (h : Environment.LiesIn t e) (whole : (all t).stopped = none)
    (part : (inSpan t e.body).stopped = none)
    (apart : ∀ m ∈ (all t).found, e.body.start ≤ m.span.start ∨ m.span.stop ≤ e.body.start) :
    ∃ before after, (all t).found = before ++ ((inSpan t e.body).found ++ after) ∧
      (∀ m ∈ before, m.span.stop ≤ e.body.start) ∧ ∀ m ∈ after, e.body.stop ≤ m.span.start := by
  obtain ⟨before, after, eq, first, last⟩ := h.exists_all_eq ["label"] whole part
    fun c hc => apart (ofCommand t c) (List.mem_map_of_mem hc)
  refine ⟨before.map (ofCommand t), after.map (ofCommand t), ?_, ?_, ?_⟩
  · simp only [all, inSpan, Scan.found_map, eq, List.map_append]
  · rintro m hm
    obtain ⟨c, hc, rfl⟩ := List.mem_map.1 hm
    exact first c hc
  · rintro m hm
    obtain ⟨c, hc, rfl⟩ := List.mem_map.1 hm
    exact last c hc

theorem exists_inSpan_holds (h : Environment.LiesIn t e) (hm : m ∈ (all t).found)
    (inside : e.body.Covers m.span) (part : (inSpan t e.body).stopped = none) :
    ∃ m' ∈ (inSpan t e.body).found, m'.span.Holds m.span.start := by
  obtain ⟨c, hc, rfl⟩ := List.mem_map.1 hm
  obtain ⟨d, hd, holds⟩ := h.exists_inSpan_holds ["label"] hc inside part
  exact ⟨ofCommand t d, List.mem_map_of_mem hd, holds⟩

end FloatFlattening.Mark
