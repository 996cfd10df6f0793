import FloatFlattening.Proofs.Outline.Panel
/-!
How the contents of a figure are split between the figure and the panels written in it.
-/

namespace FloatFlattening

namespace Figure

/-- A figure and the panels written in its body. If there are none, its images can be panels. -/
structure Parses (t : Text) (e : Environment) (f : Figure) (ps : List Panel) : Prop where
  reads : Reads t e f
  graphicsWhole : (Graphic.inSpan t e.body).stopped = none
  graphics : f.graphics = (Graphic.inSpan t e.body).found
  written : Panel.written t e.body = .ok ps
  panels : f.panels =
    if ps = [] ∧ 2 ≤ f.graphics.length then
      Panel.bare e.body.stop (Mark.inSpan t e.body).found (Command.inSpan t e.body ["caption"]).found
        f.graphics
    else ps.map (Panel.claimMarks (Mark.inSpan t e.body).found)

variable {t : Text} {e : Environment} {f : Figure} {ps : List Panel}

theorem exists_parses_of_ofEnvironment (h : ofEnvironment t e = .ok f) : ∃ ps, Parses t e f ps := by
  have reads := (reads_of_ofEnvironment h).1
  simp only [ofEnvironment, Except.bind_eq_ok_iff, Scan.complete_eq_ok_iff] at h
  obtain ⟨_, ⟨whole, rfl⟩, _, ⟨-, rfl⟩, _, ⟨-, rfl⟩, ps, written, h⟩ := h
  obtain rfl := Except.ok.inj h
  exact ⟨ps, reads, whole, rfl, written, rfl⟩

namespace Parses

theorem rename (h : Parses t e f ps) (name : FloatName) : Parses t e { f with name } ps :=
  ⟨h.reads.rename name, h.graphicsWhole, h.graphics, h.written, h.panels⟩

/-- A figure of several panels or images has panels. -/
theorem panels_ne_nil (h : Parses t e f ps) (multi : f.IsMulti) : f.panels ≠ [] := by
  have panels := h.panels
  split at panels
  next bare =>
    obtain ⟨g, gs, eq⟩ := List.exists_cons_of_length_pos (Nat.zero_lt_of_lt bare.2)
    rw [panels, eq, Panel.bare_cons]
    exact List.cons_ne_nil _ _
  next bare =>
    rintro none
    rw [panels, List.map_eq_nil_iff] at none
    subst none
    have few : ¬ 2 ≤ f.graphics.length := by simpa using bare
    exact few (multi.resolve_left (by simp [panels]))

theorem panels_eq_of_written (h : Parses t e f ps) (ne : ps ≠ []) :
    f.panels = ps.map (Panel.claimMarks (Mark.inSpan t e.body).found) := by
  rw [h.panels, if_neg fun bare => ne bare.1]

end Parses

end Figure

/-- Each figure of an outline, and the panels written in it. -/
theorem Outline.exists_figure_parses {t : Text} {o : Outline} {f : Figure} (h : ofText t = .ok o)
    (hf : f ∈ o.figures) :
    ∃ e ps, e ∈ (Environment.all t figureNames).found ∧ Figure.Parses t e f ps := by
  obtain ⟨raw, parses⟩ := exists_parses h
  rw [parses.named] at hf
  obtain ⟨g, hg, named⟩ := exists_left_of_forall₂ (forall₂_nameFigures _ 0 raw) hf
  obtain ⟨e, he, made⟩ := exists_left_of_forall₂ parses.figures hg
  obtain ⟨ps, hp⟩ := Figure.exists_parses_of_ofEnvironment made
  refine ⟨e, ps, he, ?_⟩
  cases named with
  | kept => exact hp
  | made => exact hp.rename _

namespace Figure

/-- The contents of a figure's body are split between the figure and its panels. -/
structure Splits (t : Text) (f : Figure) : Prop where
  inOrder : f.panels.Pairwise fun p q => p.span.stop ≤ q.span.start
  outermost : ∀ p ∈ f.panels, ∃ c ∈ Panel.constructs t f.body, c.span = p.span
  constructs : ∀ c ∈ Panel.constructs t f.body, ∃! p, p ∈ f.panels ∧ p.span.Covers c.span
  marks : ∀ m ∈ (Mark.inSpan t f.body).found,
    (m ∈ f.marks ∧ ∀ p ∈ f.panels, m ∉ p.marks) ∨ (m ∉ f.marks ∧ ∃! p, p ∈ f.panels ∧ m ∈ p.marks)
  captions : ∀ c ∈ (Command.inSpan t f.body ["caption"]).found,
    c ∈ f.captions ↔ ∀ p ∈ f.panels, ¬ p.span.Covers c.span

variable {t : Text} {e : Environment} {f : Figure} {ps : List Panel} {p : Panel} {m : Mark}
  {s : Span}

/-- In one of several panels that lie one after the other at most one holds a part of the text. -/
theorem existsUnique_covers (order : ps.Pairwise fun p q => p.span.stop ≤ q.span.start)
    (lt : s.start < s.stop) (h : ∃ p ∈ ps, p.span.Covers s) : ∃! p, p ∈ ps ∧ p.span.Covers s := by
  obtain ⟨p, hp, covers⟩ := h
  refine ⟨p, ⟨hp, covers⟩, fun q ⟨hq, covers'⟩ => ?_⟩
  have holds {r : Span} (covers : r.Covers s) : r.Holds s.start := ⟨covers.1, lt.trans_le covers.2⟩
  exact eq_of_holds order hq hp (holds covers') (holds covers)

namespace Parses

/-- A panel written in the body owns the marks inside it. -/
theorem mem_marks_iff (panels : f.panels = ps.map (Panel.claimMarks (Mark.inSpan t e.body).found))
    (hp : p ∈ f.panels) (hm : m ∈ (Mark.inSpan t e.body).found) : m ∈ p.marks ↔ p.span.Covers m.span := by
  rw [panels] at hp
  obtain ⟨q, -, rfl⟩ := List.mem_map.1 hp
  simp [Panel.claimMarks, hm]

theorem inPanel_iff (h : Parses t e f ps)
    (panels : f.panels = ps.map (Panel.claimMarks (Mark.inSpan t e.body).found)) :
    InPanel f.panels s ↔ ∃ p ∈ f.panels, p.span.Covers s := by
  refine exists_congr fun p => and_congr_right fun hp => or_iff_left_of_imp ?_
  rintro ⟨m, hm, rfl⟩
  exact (mem_marks_iff panels hp ((h.reads.panel_marks_sublist hp).subset hm)).1 hm

end Parses

end Figure

open Figure in
/-- Where panels are written in a figure and none of what can be one overlaps another in part, its
contents are split between it and its panels. -/
theorem Outline.splits_of_ofText {t : Text} {o : Outline} {f : Figure} (h : ofText t = .ok o)
    (hf : f ∈ o.figures) (panels : Panel.constructs t f.body ≠ [])
    (laminar : (Panel.constructs t f.body).Pairwise fun c d => c.span.Laminar d.span) : f.Splits t := by
  obtain ⟨e, ps, -, parses⟩ := exists_figure_parses h hf
  rw [parses.reads.body] at panels laminar
  have panels : f.panels = ps.map (Panel.claimMarks (Mark.inSpan t e.body).found) := by
    obtain ⟨c, hc⟩ := List.exists_mem_of_ne_nil _ panels
    obtain ⟨p, hp, -⟩ := Panel.exists_covers_of_written parses.written hc
    exact parses.panels_eq_of_written (List.ne_nil_of_mem hp)
  have inOrder : f.panels.Pairwise fun p q => p.span.stop ≤ q.span.start := by
    rw [panels, List.pairwise_map]
    exact Panel.pairwise_written parses.written laminar
  constructor
  case inOrder => exact inOrder
  all_goals rw [parses.reads.body]
  case outermost =>
    intro p hp
    rw [panels] at hp
    obtain ⟨q, hq, rfl⟩ := List.mem_map.1 hp
    obtain ⟨c, hc, read⟩ := Panel.exists_construct_of_written parses.written hq
    exact ⟨c, hc, read.span.symm⟩
  case constructs =>
    intro c hc
    obtain ⟨p, hp, covers⟩ := Panel.exists_covers_of_written parses.written hc
    have claimed : p.claimMarks (Mark.inSpan t e.body).found ∈ f.panels := panels ▸ List.mem_map_of_mem hp
    exact existsUnique_covers inOrder (Panel.start_lt_stop_of_mem_constructs hc) ⟨_, claimed, covers⟩
  case marks =>
    intro m hm
    have owns {p : Panel} (hp : p ∈ f.panels) := Parses.mem_marks_iff panels hp hm
    have outer : m ∈ f.marks ↔ ¬ ∃ p ∈ f.panels, p.span.Covers m.span := by
      simp [parses.reads.marks, hm, parses.inPanel_iff panels]
    by_cases inside : ∃ p ∈ f.panels, p.span.Covers m.span
    · obtain ⟨p, ⟨hp, covers⟩, only⟩ := existsUnique_covers inOrder (Mark.bounds_of_mem_inSpan hm).2.1 inside
      refine .inr ⟨fun out => outer.1 out inside, p, ⟨hp, (owns hp).2 covers⟩, fun q ⟨hq, own⟩ => ?_⟩
      exact only q ⟨hq, (owns hq).1 own⟩
    · exact .inl ⟨outer.2 inside, fun p hp own => inside ⟨p, hp, (owns hp).1 own⟩⟩
  case captions =>
    intro c hc
    rw [parses.reads.captions, List.mem_filter, Bool.not_eq_true', decide_eq_false_iff_not,
      parses.inPanel_iff panels, and_iff_right hc]
    simp only [not_exists, not_and]

/-- A figure with a panel that holds another, a panel of two images with two labels, and a label and a
caption of its own. -/
def Figure.mixed : Text :=
  "\\begin\x7bfigure\x7d\\subfloat\x7b\\includegraphics\x7bx\x7d" ++
    "\\begin\x7bsubfigure\x7d\\caption\x7bi\x7d\\end\x7bsubfigure\x7d\x7d" ++
    "\\begin\x7bsubfigure\x7d\\includegraphics\x7by\x7d\\includegraphics\x7bz\x7d" ++
    "\\label\x7ba\x7d\\label\x7bb\x7d\\end\x7bsubfigure\x7d" ++
    "\\label\x7bf\x7d\\caption\x7bo\x7d\\end\x7bfigure\x7d"

theorem Outline.splits_of_ofText_mixed : ∃ o f, ofText Figure.mixed = .ok o ∧ f ∈ o.figures ∧
    (Panel.constructs Figure.mixed f.body).length = 3 ∧
    (Panel.constructs Figure.mixed f.body).Pairwise (fun c d => c.span.Laminar d.span) ∧
    f.panels.length = 2 ∧ f.Splits Figure.mixed := by
  have good : ∃ o, ofText Figure.mixed = .ok o ∧ ∃ f ∈ o.figures,
      (Panel.constructs Figure.mixed f.body).length = 3 ∧
      (Panel.constructs Figure.mixed f.body).Pairwise (fun c d => c.span.Laminar d.span) ∧
      f.panels.length = 2 := by
    -- The kernel computes insertions only.
    unfold ofText Figure.ofEnvironment Panel.written
    simp only [mergeSort_key_eq]
    decide +kernel
  obtain ⟨o, ho, f, hf, three, laminar, two⟩ := good
  have some : Panel.constructs Figure.mixed f.body ≠ [] := by
    rintro none
    simp [none] at three
  exact ⟨o, f, ho, hf, three, laminar, two, splits_of_ofText ho hf some laminar⟩

end FloatFlattening
