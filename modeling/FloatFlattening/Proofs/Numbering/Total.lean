import FloatFlattening.Proofs.Numbering.Visited
/-!
The numbering registers every label once, and it fails only for a label that is set twice or a
figure with more panels than letters.
-/

namespace FloatFlattening

open Numbering

namespace Outline

variable {t : Text} {o : Outline} {m : Mark} {f : Figure}

/-- Whether a mark is registered with the figure it is in. -/
def isVisited (o : Outline) (m : Mark) : Bool :=
  (o.figureAt? m.span.start).any fun f => decide (IsVisitedWith f m)

theorem map_id_entriesOfMark (o : Outline) (m : Mark) :
    (o.entriesOfMark m).map Label.Entry.id = if o.isVisited m then [] else [m.id] := by
  rw [entriesOfMark, isVisited]
  cases o.figureAt? m.span.start with
  | some f =>
    by_cases visited : IsVisitedWith f m
    · simp [visited]
    · cases hn : f.name.id? <;> simp [visited, hn]
  | none =>
    cases o.tableAt? m.span.start with
    | some table =>
      dsimp only
      split <;> simp
    | none => simp

namespace Reads

theorem exists_visited (h : Reads t o) (hm : m ∈ o.marks) (visited : o.isVisited m) :
    ∃ f ∈ o.figures, f.span.Holds m.span.start ∧ m ∈ f.visited := by
  obtain ⟨f, hf, with_⟩ := (Option.any_eq_true _ _).1 visited
  obtain ⟨mem, holds⟩ := h.figureAt?_eq_some_iff.1 hf
  obtain ⟨m', hm', eq⟩ := Figure.isVisitedWith_iff.1 (of_decide_eq_true with_)
  obtain ⟨e, -, reads⟩ := h.exists_figure mem
  obtain rfl := h.eq_of_mem_inSpan hm (reads.mem_of_visited hm') (by rw [eq])
  exact ⟨f, mem, holds, hm'⟩

/-- The site where a label is registered. -/
theorem exists_site (h : Reads t o) (hm : m ∈ o.marks) :
    ∃ s ∈ o.sites, m.id ∈ (s.entries o).map Label.Entry.id ∧
      (s = .mark m ∨ ∃ f ∈ o.figures, s = .figure f ∧ f.span.start ≤ m.span.start ∧ m ∈ f.visited) := by
  have mem_sites {s : Site} (hs : s ∈ o.figures.map .figure ++ o.marks.map .mark) : s ∈ o.sites :=
    (Site.perm_merge o.figures o.marks).mem_iff.2 hs
  by_cases visited : o.isVisited m
  · obtain ⟨f, mem, holds, hm'⟩ := h.exists_visited hm visited
    refine ⟨.figure f, mem_sites (by simp [mem]), ?_, .inr ⟨f, mem, rfl, holds.1, hm'⟩⟩
    have ids := (h.called f mem).map_id_entries
    rw [Site.entries, ids]
    exact List.mem_append_right _ (List.mem_map_of_mem hm')
  · exact ⟨.mark m, mem_sites (by simp [hm]), by simp [Site.entries, map_id_entriesOfMark, visited],
      .inl rfl⟩

/-- The labels registered for a document: those of its marks and those registered with its figures. -/
theorem mem_ids_entries (h : Reads t o) {id : Text} :
    id ∈ o.entries.map Label.Entry.id ↔ id ∈ o.marks.map Mark.id ∨
      ∃ f ∈ o.figures, f.made? = some id ∨ ∃ m ∈ f.visited, m.id = id := by
  rw [entries, List.map_flatMap, List.mem_flatMap]
  constructor
  · rintro ⟨s, hs, mem⟩
    rcases Site.mem_merge hs with ⟨f, hf, rfl⟩ | ⟨m, hm, rfl⟩
    · rw [Site.entries, (h.called f hf).map_id_entries] at mem
      exact .inr ⟨f, hf, by simpa using mem⟩
    · rw [Site.entries, map_id_entriesOfMark] at mem
      split at mem
      · simp at mem
      · obtain rfl := List.mem_singleton.1 mem
        exact .inl (List.mem_map_of_mem hm)
  · rintro (mem | ⟨f, hf, mem⟩)
    · obtain ⟨m, hm, rfl⟩ := List.mem_map.1 mem
      obtain ⟨s, hs, mem, -⟩ := h.exists_site hm
      exact ⟨s, hs, mem⟩
    · refine ⟨.figure f, (Site.perm_merge o.figures o.marks).mem_iff.2 (by simp [hf]), ?_⟩
      rw [Site.entries, (h.called f hf).map_id_entries]
      simpa using mem

theorem pairwise_sites (h : Reads t o) : o.sites.Pairwise Site.Precedes := by
  refine Site.pairwise_merge ?_ ?_
  · refine h.pairwise_figures.imp_of_mem fun hf hg apart => ?_
    obtain ⟨e, lies, reads⟩ := h.exists_figure hf
    have := lies.start_lt
    have := lies.body_le
    have := lies.lt_stop
    rw [reads.span] at *
    omega
  · refine h.pairwise_marks.imp_of_mem fun hm hm' apart => ?_
    have := h.start_lt_stop hm
    omega

end Reads

/-- No mark is written in a `\begin` or `\end` command, and none of these in a mark. -/
def MarksApart (o : Outline) : Prop :=
  ∀ m ∈ o.marks, ∀ d ∈ Environment.delimiters o.text,
    m.span.stop ≤ d.span.start ∨ d.span.stop ≤ m.span.start

end Outline

/-- No two panels overlap. -/
def Figure.PanelsApart (f : Figure) : Prop :=
  f.panels.Pairwise fun p q => p.span.stop ≤ q.span.start ∨ q.span.stop ≤ p.span.start

namespace Outline.Reads

variable {t : Text} {o : Outline} {m : Mark} {f : Figure} {e : Environment}

theorem apart_start (h : Reads t o) (apart : o.MarksApart) (lies : Environment.LiesIn t e) :
    ∀ m ∈ (Mark.all t).found, e.body.start ≤ m.span.start ∨ m.span.stop ≤ e.span.start := by
  intro m hm
  obtain ⟨b, hb, span⟩ := lies.begins
  have := apart m (h.marks ▸ hm) b (h.text ▸ hb)
  rw [span] at this
  exact this.symm

theorem exists_marks_eq (h : Reads t o) (apart : o.MarksApart) (lies : Environment.LiesIn t e)
    (part : (Mark.inSpan t e.body).stopped = none) :
    ∃ before after, o.marks = before ++ ((Mark.inSpan t e.body).found ++ after) ∧
      (∀ m ∈ before, m.span.stop ≤ e.body.start) ∧ ∀ m ∈ after, e.body.stop ≤ m.span.start := by
  rw [h.marks]
  refine Mark.exists_all_eq lies h.whole part fun m hm => ?_
  have := lies.start_lt
  have := h.apart_start apart lies m hm
  omega

theorem mem_marks_of_mem_body (h : Reads t o) (apart : o.MarksApart) (lies : Environment.LiesIn t e)
    (part : (Mark.inSpan t e.body).stopped = none) (hm : m ∈ (Mark.inSpan t e.body).found) : m ∈ o.marks := by
  obtain ⟨before, after, eq, -⟩ := h.exists_marks_eq apart lies part
  rw [eq]
  exact List.mem_append_right _ (List.mem_append_left _ hm)

theorem mem_marks_of_visited (h : Reads t o) (apart : o.MarksApart) (hf : f ∈ o.figures)
    (hm : m ∈ f.visited) : m ∈ o.marks := by
  obtain ⟨e, lies, reads⟩ := h.exists_figure hf
  exact h.mem_marks_of_mem_body apart lies reads.whole (reads.mem_of_visited hm)

/-- A figure is called by a mark of the text or by a label made for it. -/
theorem mem_marks_or_made (h : Reads t o) (apart : o.MarksApart) (hf : f ∈ o.figures) {id : Text}
    (name : f.name.id? = some id) : id ∈ o.marks.map Mark.id ∨ f.made? = some id := by
  cases h.called f hf with
  | own own =>
    cases last : f.marks.getLast? with
    | none => simp [own, last, FloatName.ofMark?, FloatName.id?] at name
    | some m =>
      rw [last] at own
      have main : f.mainMark? = some m := by simp [Figure.mainMark?, own, last, FloatName.ofMark?, FloatName.isSynthetic]
      rw [own] at name
      obtain rfl : m.id = id := Option.some.inj name
      exact .inl (List.mem_map_of_mem (h.mem_marks_of_visited apart hf (Figure.mem_visited.2 (.inl main))))
  | made k made =>
    rw [made] at name
    exact .inr (by rw [Figure.made?, made]; exact name)

theorem holds_of_visited (h : Reads t o) (hf : f ∈ o.figures) (hm : m ∈ f.visited) :
    f.span.Holds m.span.start := by
  obtain ⟨e, lies, reads⟩ := h.exists_figure hf
  rw [reads.span]
  exact lies.holds_span (Mark.holds_of_mem_inSpan (reads.mem_of_visited hm))

theorem nodup_visited (h : Reads t o) (panels : ∀ f ∈ o.figures, f.PanelsApart) :
    (o.figures.flatMap Figure.visited).Nodup := by
  refine List.nodup_flatMap.2 ⟨fun f hf => ?_, ?_⟩
  · obtain ⟨e, lies, reads⟩ := h.exists_figure hf
    exact reads.nodup_visited (panels f hf)
  · refine h.pairwise_figures.imp_of_mem fun hf hg apart m hm hm' => ?_
    have := (h.holds_of_visited hf hm).2
    have := (h.holds_of_visited hg hm').1
    omega

theorem nodup_marks (h : Reads t o) : o.marks.Nodup := by
  rw [h.marks, Mark.all_eq_inSpan]
  exact Mark.nodup_inSpan

theorem perm_visited (h : Reads t o) (apart : o.MarksApart) (panels : ∀ f ∈ o.figures, f.PanelsApart) :
    (o.figures.flatMap Figure.visited).Perm (o.marks.filter o.isVisited) := by
  refine (List.perm_ext_iff_of_nodup (h.nodup_visited panels) (h.nodup_marks.filter _)).2 fun m => ?_
  rw [List.mem_flatMap, List.mem_filter]
  constructor
  · rintro ⟨f, hf, hm⟩
    refine ⟨h.mem_marks_of_visited apart hf hm, (Option.any_eq_true _ _).2 ⟨f, ?_, ?_⟩⟩
    · exact h.figureAt?_eq_some_iff.2 ⟨hf, h.holds_of_visited hf hm⟩
    · exact decide_eq_true (Figure.isVisitedWith_iff.2 ⟨m, hm, rfl⟩)
  · rintro ⟨hm, visited⟩
    obtain ⟨f, hf, -, hm⟩ := h.exists_visited hm visited
    exact ⟨f, hf, hm⟩

/-- Every label of the text and every label made up is registered once. -/
theorem perm_ids (h : Reads t o) (apart : o.MarksApart) (panels : ∀ f ∈ o.figures, f.PanelsApart) :
    (o.entries.map Label.Entry.id).Perm
      (o.marks.map Mark.id ++ o.figures.filterMap Figure.made?) := by
  have figures : o.figures.flatMap (fun f => f.entries.map Label.Entry.id) =
      o.figures.flatMap fun f => f.made?.toList ++ f.visited.map Mark.id :=
    List.flatMap_congr fun f hf => (h.called f hf).map_id_entries
  have marks : o.marks.flatMap (fun m => (o.entriesOfMark m).map Label.Entry.id) =
      (o.marks.filter fun m => !o.isVisited m).map Mark.id := by
    induction o.marks with
    | nil => rfl
    | cons m ms ih =>
      rw [List.flatMap_cons, ih, map_id_entriesOfMark]
      cases hm : o.isVisited m <;> simp [hm]
  calc
    _ = o.sites.flatMap fun s => (s.entries o).map Label.Entry.id := List.map_flatMap
    List.Perm _ ((o.figures.map Site.figure ++ o.marks.map Site.mark).flatMap fun s =>
        (s.entries o).map Label.Entry.id) := (Site.perm_merge o.figures o.marks).flatMap_right _
    _ = o.figures.flatMap (fun f => f.made?.toList ++ f.visited.map Mark.id) ++
        (o.marks.filter fun m => !o.isVisited m).map Mark.id := by
      rw [List.flatMap_append, List.flatMap_map, List.flatMap_map, ← figures, ← marks]
      rfl
    List.Perm _ (o.figures.filterMap Figure.made? ++ (o.figures.flatMap Figure.visited).map Mark.id ++
        (o.marks.filter fun m => !o.isVisited m).map Mark.id) := by
      refine List.Perm.append_right _ ?_
      rw [List.filterMap_eq_flatMap_toList, List.map_flatMap]
      exact (List.flatMap_append_perm _ _ _).symm
    List.Perm _ (o.figures.filterMap Figure.made? ++ (o.marks.filter o.isVisited).map Mark.id ++
        (o.marks.filter fun m => !o.isVisited m).map Mark.id) :=
      (((h.perm_visited apart panels).map Mark.id).append_left _).append_right _
    List.Perm _ (o.figures.filterMap Figure.made? ++ o.marks.map Mark.id) := by
      rw [List.append_assoc, ← List.map_append]
      exact ((List.filter_append_perm o.isVisited o.marks).map Mark.id).append_left _
    List.Perm _ _ := List.perm_append_comm

/-- A site that does not come after another is visited before it. -/
theorem mem_earlier (h : Reads t o) {earlier later : List Site} {s s' : Site}
    (eq : o.sites = earlier ++ s :: later) (hs : s' ∈ o.sites) (ne : s' ≠ s)
    (before : ¬ s.Precedes s') : s' ∈ earlier := by
  have sorted := h.pairwise_sites
  rw [eq] at hs sorted
  rcases List.mem_append.1 hs with hs | hs
  · exact hs
  · have after := (List.mem_cons.1 hs).resolve_left ne
    exact absurd (List.rel_of_pairwise_cons (List.pairwise_append.1 sorted).2.1 after) before

theorem mem_ids_earlier (h : Reads t o) {earlier later : List Site} {m' : Mark}
    (eq : o.sites = earlier ++ .mark m :: later) (hm' : m' ∈ o.marks)
    (lt : m'.span.start < m.span.start) :
    m'.id ∈ (earlier.flatMap (Site.entries o)).map Label.Entry.id := by
  obtain ⟨s, hs, mem, place⟩ := h.exists_site hm'
  have hs : s ∈ earlier := by
    rcases place with rfl | ⟨f, -, rfl, le, -⟩
    · refine h.mem_earlier eq hs ?_ (Nat.not_le.2 lt)
      rintro ⟨⟩
      exact lt.false
    · exact h.mem_earlier eq hs (by simp) (Nat.not_lt.2 (Nat.le_trans le lt.le))
  obtain ⟨entry, he, id⟩ := List.mem_map.1 mem
  exact id ▸ List.mem_map_of_mem (List.mem_flatMap.2 ⟨s, hs, he⟩)

/-- The first mark of a table comes before its others. -/
theorem first_lt (h : Reads t o) (apart : o.MarksApart) {table : Table} {first : Mark}
    (ht : table ∈ o.tables) (holds : table.span.Holds m.span.start) (hm : m ∈ o.marks)
    (hf : table.marks.head? = some first) (ne : first.span ≠ m.span) :
    first ∈ o.marks ∧ first.span.start < m.span.start := by
  obtain ⟨e, lies, reads⟩ := h.exists_table ht
  obtain ⟨ms, marks⟩ := List.head?_eq_some_iff.1 (reads.marks ▸ hf)
  obtain ⟨before, after, eq, hb, -⟩ := h.exists_marks_eq apart lies reads.whole
  rw [marks] at eq
  have sorted := h.pairwise_marks
  have lt := h.start_lt_stop (m := first) (by simp [eq])
  have start : e.body.start ≤ m.span.start := by
    have := h.apart_start apart lies m (h.marks ▸ hm)
    have := h.start_lt_stop hm
    have := holds.1
    rw [reads.span] at this
    omega
  rw [eq] at sorted hm
  refine ⟨by simp [eq], ?_⟩
  rcases List.mem_append.1 hm with early | late
  · have := hb m early
    have := h.start_lt_stop (m := m) (by simp [eq, early])
    omega
  · have sorted := (List.pairwise_append.1 sorted).2.1
    rw [List.cons_append] at late sorted
    rcases List.mem_cons.1 late with rfl | late
    · exact absurd rfl ne
    · have := List.rel_of_pairwise_cons sorted late
      omega

/-- What a mark is a further name for: the figure that it is in, or the first label of the table. -/
theorem further_of_mark (h : Reads t o) {id target : Text}
    (he : .further id target ∈ o.entriesOfMark m) :
    (∃ f ∈ o.figures, f.span.Holds m.span.start ∧ f.name.id? = some target) ∨
      ∃ table ∈ o.tables, table.span.Holds m.span.start ∧
        ∃ first, table.marks.head? = some first ∧ first.span ≠ m.span ∧ first.id = target := by
  rw [entriesOfMark] at he
  cases hf : o.figureAt? m.span.start with
  | some f =>
    obtain ⟨mem, holds⟩ := h.figureAt?_eq_some_iff.1 hf
    simp only [hf] at he
    split at he
    · simp at he
    · cases hn : f.name.id? with
      | none => simp [hn] at he
      | some name =>
        obtain ⟨-, rfl⟩ : id = m.id ∧ target = name := by simpa [hn] using he
        exact .inl ⟨f, mem, holds, hn⟩
  | none =>
    cases ht : o.tableAt? m.span.start with
    | none => simp [hf, ht] at he
    | some table =>
      obtain ⟨mem, holds⟩ := h.tableAt?_eq_some_iff.1 ht
      simp only [hf, ht] at he
      split at he
      next first hfirst =>
        obtain ⟨-, rfl⟩ : id = m.id ∧ target = first.id := by simpa using he
        obtain ⟨head, ne⟩ := Option.mem_filter_iff.1 hfirst
        exact .inr ⟨table, mem, holds, first, head, by simpa using ne, rfl⟩
      next => simp at he

/-- A further name is always for a label registered before. -/
theorem not_lost (h : Reads t o) (apart : o.MarksApart) {earlier later : List Site} {s : Site}
    (eq : o.sites = earlier ++ s :: later) :
    ¬ s.Lost o ((earlier.flatMap (Site.entries o)).map Label.Entry.id) := by
  cases s with
  | figure f => exact id
  | mark m =>
    rintro ⟨id, target, he, lost⟩
    have hm : m ∈ o.marks := by
      have : .mark m ∈ o.sites := by simp [eq]
      simpa using (Site.perm_merge o.figures o.marks).mem_iff.1 this
    refine lost ?_
    rcases h.further_of_mark he with ⟨f, mem, holds, hn⟩ | ⟨table, mem, holds, first, head, ne, rfl⟩
    · have site : .figure f ∈ o.sites :=
        (Site.perm_merge o.figures o.marks).mem_iff.2 (by simp [mem])
      have early : .figure f ∈ earlier := h.mem_earlier eq site (by simp) (Nat.not_lt.2 holds.1)
      have : .own target .figure none none ∈ earlier.flatMap (Site.entries o) :=
        List.mem_flatMap.2 ⟨.figure f, early, by simp [Site.entries, Figure.entries, hn]⟩
      exact List.mem_map_of_mem this
    · obtain ⟨hfirst, lt⟩ := h.first_lt apart mem holds hm head ne
      exact h.mem_ids_earlier eq hfirst lt

theorem overfull_iff (h : Reads t o) (hf : f ∈ o.figures) :
    f.Overfull ↔ Panel.maxCount < f.panels.length := by
  refine ⟨And.right, fun full => ⟨fun unnamed => ?_, full⟩⟩
  have name : f.name = .unnamed := by
    cases hn : f.name <;> simp_all [FloatName.id?]
  cases h.called f hf with
  | own _ named =>
    have multi : f.IsMulti := .inl (Nat.le_trans (by decide) full)
    exact named name (.inl multi)
  | made k synthetic => simp [name] at synthetic

end Outline.Reads

namespace Numbering

/-- A numbering fails only for a label that is set twice and for a figure with more panels than
letters. Otherwise it registers the labels of the text and those made up, each once. -/
theorem ofOutline_total {t : Text} {o : Outline} (h : Outline.ofText t = .ok o)
    (apart : o.MarksApart) (panels : ∀ f ∈ o.figures, f.PanelsApart) :
    ((∃ f, ofOutline o = .error f) ↔
        ¬ (o.marks.map Mark.id).Nodup ∨ ∃ f ∈ o.figures, Panel.maxCount < f.panels.length) ∧
      (∀ f, ofOutline o = .error f →
        IsDuplicate f ∧ ¬ (o.marks.map Mark.id).Nodup ∨
          IsFull f ∧ ∃ f ∈ o.figures, Panel.maxCount < f.panels.length) ∧
      ∀ n, ofOutline o = .ok n →
        (n.labels.map Label.id).Nodup ∧
          (n.labels.map Label.id).Perm (o.marks.map Mark.id ++ o.figures.filterMap Figure.made?) ∧
          (o.figures.filterMap Figure.made?).Nodup ∧
          ∀ id ∈ o.figures.filterMap Figure.made?, id ∉ o.marks.map Mark.id := by
  have reads := Outline.reads_of_ofText h
  have perm := reads.perm_ids apart panels
  have nodup : (o.entries.map Label.Entry.id).Nodup ↔ (o.marks.map Mark.id).Nodup := by
    rw [perm.nodup_iff, List.nodup_append]
    refine ⟨And.left, fun marks => ⟨marks, reads.nodup_made, ?_⟩⟩
    rintro id hm _ made rfl
    exact reads.made_not_mem id made hm
  have full : (∃ s ∈ o.sites, s.Overfull) ↔ ∃ f ∈ o.figures, Panel.maxCount < f.panels.length := by
    constructor
    · rintro ⟨s, hs, full⟩
      rcases Site.mem_merge hs with ⟨f, hf, rfl⟩ | ⟨m, -, rfl⟩
      · exact ⟨f, hf, (reads.overfull_iff hf).1 full⟩
      · exact full.elim
    · rintro ⟨f, hf, full⟩
      have site : .figure f ∈ o.sites :=
        (Site.perm_merge o.figures o.marks).mem_iff.2 (by simp [hf])
      exact ⟨.figure f, site, (reads.overfull_iff hf).2 full⟩
  have outcome := (outcome_ofOutline o).imp full
    fun ⟨earlier, s, later, eq, lost⟩ => reads.not_lost apart eq lost
  rw [ofOutline_eq]
  generalize (o.sites.forM (visit o)).run empty = r at outcome
  cases outcome with
  | @grown _ n grows notFull =>
    have ids : n.labels.map Label.id = o.entries.map Label.Entry.id := grows.ids
    have sound := (grows.sound sound_empty).nodup
    rw [Numbering.ids, ids] at sound
    refine ⟨?_, by simp, ?_⟩
    · simp [nodup.1 sound, notFull]
    · rintro _ ⟨⟩
      rw [ids]
      exact ⟨sound, perm, reads.nodup_made, reads.made_not_mem⟩
  | duplicate duplicate twice =>
    have twice : ¬ (o.marks.map Mark.id).Nodup := fun marks => twice (nodup.2 marks)
    exact ⟨by simp [twice], by simp [duplicate, twice], by simp⟩
  | outOfLetters isFull isSo => exact ⟨by simp [isSo], by simp [isFull, isSo], by simp⟩
  | lost isSo => exact isSo.elim

/-- An equation, a figure that only its panel has a label in, and a table with two labels. -/
def sample : Text :=
  "\\begin\x7bequation\x7d\\label\x7beq\x7d\\end\x7bequation\x7d" ++
    "\\begin\x7bfigure\x7d\\subfloat\x7b\\label\x7ba\x7d\x7d\\end\x7bfigure\x7d" ++
    "\\begin\x7btable\x7d\\label\x7bt\x7d\\label\x7bu\x7d\\end\x7btable\x7d"

instance (o : Outline) : Decidable o.MarksApart :=
  inferInstanceAs (Decidable (∀ m ∈ o.marks, ∀ d ∈ Environment.delimiters o.text, _))

instance (f : Figure) : Decidable f.PanelsApart :=
  inferInstanceAs (Decidable (f.panels.Pairwise _))

theorem ofOutline_total_sample : ∃ o n, Outline.ofText sample = .ok o ∧ o.MarksApart ∧
    (∀ f ∈ o.figures, f.PanelsApart) ∧ ofOutline o = .ok n ∧
    (n.labels.map Label.id).Perm (o.marks.map Mark.id ++ o.figures.filterMap Figure.made?) := by
  have good : ∀ o ∈ (Outline.ofText sample).toOption, o.MarksApart ∧
      (∀ f ∈ o.figures, f.PanelsApart) ∧ (ofOutline o).isOk := by decide +kernel
  cases h : Outline.ofText sample with
  | error f =>
    have : (Outline.ofText sample).isOk := by decide +kernel
    simp [h, Except.isOk, Except.toBool] at this
  | ok o =>
    obtain ⟨apart, panels, ok⟩ := good o (by simp [h, Except.toOption])
    cases hn : ofOutline o with
    | error f => simp [hn, Except.isOk, Except.toBool] at ok
    | ok n => exact ⟨o, n, rfl, apart, panels, hn, ((ofOutline_total h apart panels).2.2 n hn).2.1⟩

end Numbering

end FloatFlattening
