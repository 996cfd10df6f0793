import FloatFlattening.Outline.Figure
import FloatFlattening.Proofs.Markup.Mark
import FloatFlattening.Proofs.Except
/-!
How a figure is read off a text, and which of the marks of its body its panels own.
-/

namespace FloatFlattening

namespace Scan

variable {α β : Type} {s : Scan α} {t : Text}

theorem traverse_eq_ok_iff {f : α → Except Fault β} {r : List β} :
    s.traverse t f = .ok r ↔ s.stopped = none ∧ List.Forall₂ (fun a b => f a = .ok b) s.found r := by
  rw [traverse, Except.bind_eq_ok_iff]
  simp only [Except.mapM_eq_ok_iff, complete_eq_ok_iff]
  constructor
  · rintro ⟨l, h, none, rfl⟩
    exact ⟨none, h⟩
  · rintro ⟨none, h⟩
    exact ⟨r, h, none, rfl⟩

end Scan

namespace Panel

variable {t : Text} {stop : Nat} {marks : List Mark} {captions : List Command} {p : Panel}
  {g : Graphic} {gs : List Graphic}

/-- Where the mark of a bare panel may stand. -/
def window (stop : Nat) (g : Graphic) (gs : List Graphic) : Span :=
  ⟨g.span.stop, (gs.head?.map (·.span.start)).getD stop⟩

/-- The mark that a bare panel owns. -/
def own? (stop : Nat) (marks : List Mark) (captions : List Command) (g : Graphic)
    (gs : List Graphic) : Option Mark :=
  (marks.find? fun m =>
    (window stop g gs).start ≤ m.span.start && m.span.stop ≤ (window stop g gs).stop).filter
      fun m => !captions.any fun c => g.span.stop ≤ c.span.start && c.span.start < m.span.start

theorem bare_cons : bare stop marks captions (g :: gs) =
    { form := .bare, span := g.span, share := none, graphics := [g]
      marks := (own? stop marks captions g gs).toList } :: bare stop marks captions gs := rfl

theorem covers_of_own? {m : Mark} (h : m ∈ own? stop marks captions g gs) :
    m ∈ marks ∧ (window stop g gs).Covers m.span := by
  have found := (Option.mem_filter_iff.1 h).1
  exact ⟨List.mem_of_find?_eq_some found, by simpa [Span.Covers] using List.find?_some found⟩

theorem marks_sublist_of_mem_bare (h : p ∈ bare stop marks captions gs) :
    p.marks.Sublist marks ∧ ∃ g ∈ gs, ∀ m ∈ p.marks, g.span.stop ≤ m.span.start := by
  induction gs with
  | nil => simp [bare] at h
  | cons g gs ih =>
    rw [bare_cons] at h
    rcases List.mem_cons.1 h with rfl | h
    · cases own : own? stop marks captions g gs with
      | none => exact ⟨List.nil_sublist marks, g, by simp⟩
      | some m =>
        obtain ⟨mem, start, -⟩ := covers_of_own? own
        exact ⟨List.singleton_sublist.2 mem, g, by simpa [window] using start⟩
    · obtain ⟨sub, g', hg', after⟩ := ih h
      exact ⟨sub, g', List.mem_cons_of_mem g hg', after⟩

/-- The marks of bare panels come in the order of the panels. -/
theorem pairwise_bare (sorted : gs.Pairwise fun g g' => g.span.stop ≤ g'.span.start)
    (ordered : ∀ g ∈ gs, g.span.start ≤ g.span.stop) :
    (bare stop marks captions gs).Pairwise fun p q =>
      ∀ m ∈ p.marks, ∀ m' ∈ q.marks, m.span.stop ≤ m'.span.start := by
  induction gs with
  | nil => exact .nil
  | cons g gs ih =>
    rw [bare_cons]
    refine List.pairwise_cons.2 ⟨fun q hq m hm m' hm' => ?_,
      ih sorted.of_cons fun g' hg' => ordered g' (List.mem_cons_of_mem g hg')⟩
    obtain ⟨-, -, stop_le⟩ := covers_of_own? (Option.mem_toList.1 hm)
    obtain ⟨-, g', hg', after⟩ := marks_sublist_of_mem_bare hq
    have := ordered g' (List.mem_cons_of_mem g hg')
    have next : (window stop g gs).stop ≤ g'.span.start := by
      cases gs with
      | nil => simp at hg'
      | cons head gs =>
        have := ordered head (by simp)
        rcases List.mem_cons.1 hg' with rfl | hg'
        · exact le_rfl
        · exact this.trans (List.rel_of_pairwise_cons sorted.of_cons hg')
    exact stop_le.trans (next.trans (this.trans (after m' hm')))

end Panel

namespace Graphic

variable {t : Text} {s : Span} {g : Graphic}

theorem start_le_stop (h : g ∈ (inSpan t s).found) : g.span.start ≤ g.span.stop := by
  obtain ⟨c, hc, rfl⟩ := List.mem_map.1 h
  exact (Nat.le_succ _).trans (Command.start_lt_stop hc).le

theorem pairwise_inSpan : (inSpan t s).found.Pairwise fun g g' => g.span.stop ≤ g'.span.start :=
  List.Pairwise.map _ (fun _ _ h => h) Command.pairwise_found

end Graphic

namespace Figure

variable {t : Text} {e : Environment} {f : Figure}

/-- How a figure is read off the environment it is. -/
structure Reads (t : Text) (e : Environment) (f : Figure) : Prop where
  span : f.span = e.span
  body : f.body = e.body
  whole : (Mark.inSpan t e.body).stopped = none
  captionsWhole : (Command.inSpan t e.body ["caption"]).stopped = none
  panels :
    f.IsMulti ∧ f.panels = Panel.bare e.body.stop (Mark.inSpan t e.body).found
        (Command.inSpan t e.body ["caption"]).found (Graphic.inSpan t e.body).found ∨
      ∃ written : List Panel, f.panels = written.map (Panel.claimMarks (Mark.inSpan t e.body).found)
  captions : f.captions = (Command.inSpan t e.body ["caption"]).found.filter
    fun c => !decide (InPanel f.panels c.span)
  marks : f.marks =
    (Mark.inSpan t e.body).found.filter fun m => !decide (InPanel f.panels m.span)

theorem reads_of_ofEnvironment (h : ofEnvironment t e = .ok f) :
    Reads t e f ∧ f.name = .ofMark? f.marks.getLast? := by
  simp only [ofEnvironment, Except.bind_eq_ok_iff, Scan.complete_eq_ok_iff] at h
  obtain ⟨_, ⟨-, rfl⟩, _, ⟨whole, rfl⟩, _, ⟨captionsWhole, rfl⟩, written, -, h⟩ := h
  obtain rfl := Except.ok.inj h
  refine ⟨⟨rfl, rfl, whole, captionsWhole, ?_, rfl, rfl⟩, rfl⟩
  dsimp only [IsMulti]
  split
  next bare => exact .inl ⟨.inr bare.2, rfl⟩
  · exact .inr ⟨written, rfl⟩

namespace Reads

variable {p : Panel}

theorem rename (h : Reads t e f) (name : FloatName) : Reads t e { f with name } :=
  ⟨h.span, h.body, h.whole, h.captionsWhole, h.panels, h.captions, h.marks⟩

theorem panel_marks_sublist (h : Reads t e f) (hp : p ∈ f.panels) :
    p.marks.Sublist (Mark.inSpan t e.body).found := by
  rcases h.panels with ⟨-, eq⟩ | ⟨written, eq⟩
  · exact (Panel.marks_sublist_of_mem_bare (eq ▸ hp)).1
  · rw [eq] at hp
    obtain ⟨q, -, rfl⟩ := List.mem_map.1 hp
    exact List.filter_sublist

theorem marks_sublist (h : Reads t e f) : f.marks.Sublist (Mark.inSpan t e.body).found :=
  h.marks ▸ List.filter_sublist

/-- No mark is owned by two panels that lie apart. -/
theorem disjoint_panels (h : Reads t e f) (apart : f.panels.Pairwise fun p q =>
      p.span.stop ≤ q.span.start ∨ q.span.stop ≤ p.span.start) :
    f.panels.Pairwise fun p q => List.Disjoint p.marks q.marks := by
  rcases h.panels with ⟨-, eq⟩ | ⟨written, eq⟩
  · have order : f.panels.Pairwise fun p q =>
        ∀ m ∈ p.marks, ∀ m' ∈ q.marks, m.span.stop ≤ m'.span.start := by
      rw [eq]
      exact Panel.pairwise_bare Graphic.pairwise_inSpan fun g hg => Graphic.start_le_stop hg
    refine order.imp_of_mem fun hp hq order m hm hm' => ?_
    have := Mark.bounds_of_mem_inSpan ((h.panel_marks_sublist hp).subset hm)
    have := order m hm m hm'
    omega
  · refine apart.imp_of_mem fun hp hq apart m hm hm' => ?_
    have bounds := Mark.bounds_of_mem_inSpan ((h.panel_marks_sublist hp).subset hm)
    rw [eq] at hp hq
    obtain ⟨p, -, rfl⟩ := List.mem_map.1 hp
    obtain ⟨q, -, rfl⟩ := List.mem_map.1 hq
    have inP : p.span.Covers m.span := by simpa using List.of_mem_filter hm
    have inQ : q.span.Covers m.span := by simpa using List.of_mem_filter hm'
    simp only [Panel.claimMarks] at apart
    have := inP.1
    have := inP.2
    have := inQ.1
    have := inQ.2
    omega

end Reads

end Figure

end FloatFlattening
