import FloatFlattening.Proofs.Block.Image
import FloatFlattening.Proofs.Markup.Cut
/-!
Which images of a figure's body its block lists. A figure without written panels lists them all. One
with panels lists those in its panels, panel by panel, and no others.
-/

namespace FloatFlattening

namespace Graphic

variable {t : Text} {r s : Span}

theorem found_eq_filter (cut : Span.Cut t r s) (length : r.stop ≤ t.length)
    (whole : (inSpan t r).stopped = none) (part : (inSpan t s).stopped = none)
    (apart : ∀ g ∈ (inSpan t r).found, s.Covers g.span ∨ s.Apart g.span) :
    (inSpan t s).found = (inSpan t r).found.filter fun g => s.Covers g.span := by
  have commands := Command.found_eq_filter cut length whole part fun c hc =>
    (apart (ofCommand c) (List.mem_map_of_mem hc)).imp_right Or.symm
  rw [inSpan, inSpan, Scan.found_map, Scan.found_map, commands, List.filter_map]
  rfl

end Graphic

/-- The members of a list that lie in one of several parts, one after the other, taken part by part. -/
theorem filter_covers_eq_flatMap {α : Type} {span : α → Span} {l : List α} {parts : List Span}
    (sorted : l.Pairwise fun a b => (span a).stop ≤ (span b).start)
    (lt : ∀ a ∈ l, (span a).start < (span a).stop)
    (order : parts.Pairwise fun r s => r.stop ≤ s.start) :
    l.filter (fun a => ∃ s ∈ parts, s.Covers (span a)) =
      parts.flatMap fun s => l.filter fun a => s.Covers (span a) := by
  -- Both lists are in the order in which their members start, so their members tell them apart.
  have key : l.Pairwise fun a b => (span a).start < (span b).start :=
    sorted.imp_of_mem fun ha _ le => (lt _ ha).trans_le le
  have : Std.Irrefl fun a b : α => (span a).start < (span b).start := ⟨fun a => Nat.lt_irrefl _⟩
  have : Std.Antisymm fun a b : α => (span a).start < (span b).start :=
    ⟨fun a b h k => absurd h (Nat.lt_asymm k)⟩
  refine (key.filter _).eq_of_mem_iff (List.pairwise_flatMap.2 ⟨fun s _ => key.filter _, ?_⟩) fun a => ?_
  · refine order.imp fun le a ha b hb => ?_
    obtain ⟨mem, inside⟩ := List.mem_filter.1 ha
    have inside' := (List.mem_filter.1 hb).2
    exact (lt a mem).trans_le ((of_decide_eq_true inside).2.trans (le.trans (of_decide_eq_true inside').1))
  · simp only [List.mem_filter, List.mem_flatMap, decide_eq_true_eq]
    tauto

namespace Panel

variable {t : Text} {s : Span} {c : Construct}

theorem cut_of_mem_constructs (h : c ∈ constructs t s) : Span.Cut t s c.content := by
  rcases List.mem_append.1 h with h | h
  · obtain ⟨command, found, rfl⟩ := List.mem_map.1 h
    exact Command.cut_of_mem_inSpan found
  · obtain ⟨e, found, rfl⟩ := List.mem_map.1 h
    exact Environment.cut_of_mem_inSpan found

theorem covers_of_mem_constructs (h : c ∈ constructs t s) : c.span.Covers c.content := by
  rcases List.mem_append.1 h with h | h
  · obtain ⟨command, found, rfl⟩ := List.mem_map.1 h
    exact .refl _
  · obtain ⟨e, found, rfl⟩ := List.mem_map.1 h
    exact ⟨(Environment.body_within_of_mem_inSpan found).1.le, (Environment.body_within_of_mem_inSpan found).2.le⟩

end Panel

/-- The images in the body of a figure. -/
def Figure.shown (t : Text) (f : Figure) : List Graphic := (Graphic.inSpan t f.body).found

/-- No image in the body of a figure lies across an end of one of some parts of it. -/
def Figure.Uncut (t : Text) (f : Figure) (parts : List Span) : Prop :=
  ∀ s ∈ parts, ∀ g ∈ f.shown t, s.Covers g.span ∨ s.Apart g.span

instance (t : Text) (f : Figure) (parts : List Span) : Decidable (f.Uncut t parts) :=
  inferInstanceAs (Decidable (∀ s ∈ parts, ∀ g ∈ f.shown t, _))

namespace Block

/-- Which images in the body of a figure a block lists: all, if no panel is written there, and else
those that its panels enclose. -/
structure Lists (t : Text) (f : Figure) (b : Block) : Prop where
  bare : Panel.constructs t f.body = [] → b.images.map Image.path = (f.shown t).map Graphic.path
  panels : Panel.constructs t f.body ≠ [] →
    ∃ contents, List.Forall₂ (fun p s => ⟨p.span, s⟩ ∈ Panel.constructs t f.body) f.panels contents ∧
      (f.Uncut t contents →
        b.images.map Image.path =
            (contents.flatMap fun s => (f.shown t).filter fun g => s.Covers g.span).map Graphic.path ∧
          (f.PanelsApart → b.images.map Image.path =
            ((f.shown t).filter fun g => ∃ s ∈ contents, s.Covers g.span).map Graphic.path))

variable {t : Text} {o : Outline} {f : Figure} {b : Block} {blocks : List Block} {withTables : Bool}
  {images : List Image} {e : Environment} {ps : List Panel}

theorem map_path_ofPanels (ps : List Panel) : (ps.zipIdx.flatMap fun (p, i) => ofPanel p i).map Image.path =
    (ps.flatMap Panel.graphics).map Graphic.path := by
  have paths (p : Panel) (i : Nat) : (ofPanel p i).map Image.path = p.graphics.map Graphic.path := by
    rw [ofPanel, List.map_map]
    rfl
  simp only [List.map_flatMap, paths]
  rw [← List.flatMap_map Prod.fst fun p : Panel => p.graphics.map Graphic.path, List.zipIdx_map_fst]

theorem graphics_bare (stop : Nat) (marks : List Mark) (captions : List Command) (gs : List Graphic) :
    (Panel.bare stop marks captions gs).flatMap Panel.graphics = gs := by
  induction gs with
  | nil => rfl
  | cons g gs ih => rw [Panel.bare_cons, List.flatMap_cons, ih, List.singleton_append]

/-- The panels written in a figure, each with what it encloses. -/
theorem exists_contents (h : Figure.Parses t e f ps)
    (panels : f.panels = ps.map (Panel.claimMarks (Mark.inSpan t e.body).found)) :
    ∃ contents, List.Forall₂ (fun p s => (⟨p.span, s⟩ ∈ Panel.constructs t e.body) ∧
      (Graphic.inSpan t s).stopped = none ∧ p.graphics = (Graphic.inSpan t s).found) f.panels contents := by
  rw [panels]
  simp only [List.forall₂_map_left_iff]
  apply exists_forall₂
  intro p hp
  obtain ⟨⟨span, content⟩, hc, read⟩ := Panel.exists_construct_of_written h.written hp
  obtain rfl : p.span = span := read.span
  exact ⟨content, hc, read.whole, read.graphics⟩

/-- Written panels that lie apart come one after the other, and so does what they enclose. -/
theorem pairwise_contents (h : Figure.Parses t e f ps)
    (panels : f.panels = ps.map (Panel.claimMarks (Mark.inSpan t e.body).found)) (apart : f.PanelsApart)
    {contents : List Span}
    (hc : List.Forall₂ (fun p s => (⟨p.span, s⟩ : Panel.Construct) ∈ Panel.constructs t e.body) f.panels contents) :
    contents.Pairwise fun r s => r.stop ≤ s.start := by
  have inOrder : f.panels.Pairwise fun p q => p.span.stop ≤ q.span.start := by
    have sorted : f.panels.Pairwise fun p q => p.span.start ≤ q.span.start := by
      rw [panels, List.pairwise_map]
      exact Panel.sorted_written h.written
    refine (sorted.and apart).imp_of_mem fun {p q} _ hq ⟨le, apart⟩ => apart.resolve_right fun before => ?_
    rw [panels] at hq
    obtain ⟨q', written, rfl⟩ := List.mem_map.1 hq
    have lt : q'.span.start < q'.span.stop := Panel.start_lt_stop_of_written h.written written
    simp only [Panel.claimMarks] at le before
    omega
  refine pairwise_of_forall₂ hc inOrder fun p s hs q r hr le => ?_
  exact (Panel.covers_of_mem_constructs hs).2.trans (le.trans (Panel.covers_of_mem_constructs hr).1)

theorem lists_of_parses (h : Figure.Parses t e f ps) (lies : Environment.LiesIn t e) (multi : f.IsMulti)
    {u : Text} (made : imagesOfFigure u f = .ok b.images) : Lists t f b := by
  have paths : b.images.map Image.path = (f.panels.flatMap Panel.graphics).map Graphic.path := by
    rw [(imagesOfFigure_ok made (h.panels_ne_nil multi)).1, map_path_ofPanels]
  have shown : f.shown t = (Graphic.inSpan t e.body).found := by rw [Figure.shown, h.reads.body]
  constructor
  all_goals rw [paths, shown, h.reads.body]
  case bare =>
    intro none
    have unwritten : ps = [] := List.eq_nil_iff_forall_not_mem.2 fun p hp => by
      obtain ⟨c, hc, -⟩ := Panel.exists_construct_of_written h.written hp
      simp [none] at hc
    have panels := h.panels
    split at panels
    next => rw [panels, graphics_bare, h.graphics]
    next => exact absurd (by simp [panels, unwritten]) (h.panels_ne_nil multi)
  case panels =>
    intro some
    obtain ⟨c, hc⟩ := List.exists_mem_of_ne_nil _ some
    obtain ⟨p, hp, -⟩ := Panel.exists_covers_of_written h.written hc
    have panels := h.panels_eq_of_written (List.ne_nil_of_mem hp)
    obtain ⟨contents, reads⟩ := exists_contents h panels
    refine ⟨contents, reads.imp fun _ _ read => read.1, fun uncut => ?_⟩
    -- No image of the body lies across an end of a panel, so the search of the panel finds those inside it.
    have listed : f.panels.flatMap Panel.graphics =
        contents.flatMap fun s => (Graphic.inSpan t e.body).found.filter fun g => s.Covers g.span := by
      refine flatMap_eq_of_forall₂ (forall₂_mem reads) fun p s ⟨⟨_, mem⟩, construct, whole, graphics⟩ => ?_
      have length : e.body.stop ≤ t.length := lies.lt_stop.le.trans lies.stop_le
      rw [graphics, Graphic.found_eq_filter (Panel.cut_of_mem_constructs construct) length h.graphicsWhole whole
        fun g hg => uncut s mem g (shown ▸ hg)]
    refine ⟨by rw [listed], fun apart => ?_⟩
    have order := pairwise_contents h panels apart (reads.imp fun _ _ read => read.1)
    rw [listed, filter_covers_eq_flatMap Graphic.pairwise_inSpan (fun g hg => ?_) order]
    obtain ⟨c, hc, rfl⟩ := List.mem_map.1 hg
    exact (Nat.lt_succ_self _).trans (Command.start_lt_stop hc)

theorem lists_of_ofOutline (outline : Outline.ofText t = .ok o) (collected : ofOutline withTables o = .ok blocks)
    (hf : f ∈ o.figures) (multi : f.IsMulti) :
    (∃ b ∈ blocks, b.kind = .figure ∧ b.span = f.span) ∧
      ∀ b ∈ blocks, b.kind = .figure → b.span = f.span → Lists t f b := by
  refine ⟨exists_block_of_figure collected hf multi, fun b hb kind span => ?_⟩
  obtain ⟨g, hg, multi', span', -, made⟩ := exists_figure collected hb kind
  have reads := Outline.reads_of_ofText outline
  obtain ⟨e, ps, he, parses⟩ := Outline.exists_figure_parses outline hf
  have lies := Environment.liesIn_of_mem_all he
  have holds : f.span.Holds f.span.start := by
    rw [parses.reads.span]
    exact ⟨le_rfl, Environment.start_lt_stop he⟩
  obtain rfl : g = f := eq_of_holds reads.pairwise_figures hg hf (span' ▸ span ▸ holds) holds
  exact lists_of_parses parses lies multi made

theorem lists_of_ofOutline_mixed : ∃ o blocks f b, Outline.ofText Figure.mixed = .ok o ∧
    ofOutline false o = .ok blocks ∧ f ∈ o.figures ∧ f.IsMulti ∧ b ∈ blocks ∧
    b.images.map Image.path = [['x'], ['y'], ['z']] ∧
    f.Uncut Figure.mixed ((Panel.constructs Figure.mixed f.body).map Panel.Construct.content) ∧ f.PanelsApart ∧
    Lists Figure.mixed f b := by
  have good : ∃ o, Outline.ofText Figure.mixed = .ok o ∧ ∃ blocks, ofOutline false o = .ok blocks ∧
      ∃ f ∈ o.figures, f.IsMulti ∧ ∃ b ∈ blocks, b.images.map Image.path = [['x'], ['y'], ['z']] ∧
        f.Uncut Figure.mixed ((Panel.constructs Figure.mixed f.body).map Panel.Construct.content) ∧
        f.PanelsApart ∧ b.kind = .figure ∧ b.span = f.span := by
    unfold Outline.ofText Figure.ofEnvironment Panel.written
    simp only [mergeSort_key_eq]
    decide +kernel
  obtain ⟨o, ho, blocks, hblocks, f, hf, multi, b, hb, paths, uncut, apart, kind, span⟩ := good
  exact ⟨o, blocks, f, b, ho, hblocks, hf, multi, hb, paths, uncut, apart,
    (lists_of_ofOutline ho hblocks hf multi).2 b hb kind span⟩

/-- The images in the body of a figure of a text, and those that its block lists. -/
def ListsFor (t : Text) (shown listed : List Text) : Prop :=
  ∃ o, Outline.ofText t = .ok o ∧ ∃ blocks, ofOutline false o = .ok blocks ∧
    ∃ f ∈ o.figures, f.IsMulti ∧ (f.shown t).map Graphic.path = shown ∧
      ∃ b ∈ blocks, b.kind = .figure ∧ b.span = f.span ∧ b.images.map Image.path = listed

/-- An image beside a panel. -/
def beside : Text :=
  "\\begin\x7bfigure\x7d\\subfloat\x7b\\includegraphics\x7ba\x7d\x7d\\includegraphics\x7bb\x7d\\end\x7bfigure\x7d"

/-- An image in two panels that overlap. -/
def crossed : Text :=
  "\\begin\x7bfigure\x7d\\subfloat\x7b\\begin\x7bsubfigure\x7d\\includegraphics\x7bx\x7d\x7d" ++
    "\\end\x7bsubfigure\x7d\\end\x7bfigure\x7d"

/-- An image whose argument is a panel. -/
def around : Text :=
  "\\begin\x7bfigure\x7d\\includegraphics\x7b\\subfloat\x7b\\includegraphics\x7bb\x7d\x7d\x7d" ++
    "\\includegraphics\x7bc\x7d\\end\x7bfigure\x7d"

theorem exists_unlisted : ListsFor beside ["a", "b"] ["a"] ∧ ListsFor crossed ["x"] ["x", "x"] ∧
    ListsFor around ["\\subfloat\x7b\\includegraphics\x7bb\x7d\x7d", "c"] ["b"] := by
  refine ⟨?_, ?_, ?_⟩
  all_goals
    unfold ListsFor Outline.ofText Figure.ofEnvironment Panel.written
    simp only [mergeSort_key_eq]
    decide +kernel

end Block

end FloatFlattening
