import FloatFlattening.Proofs.Numbering.Owner
import FloatFlattening.Proofs.Numbering.Tag
/-!
The numbering of a document says of each label what the document says of it: its kind is that of the
place where it stands, its number counts the labels of its kind up to it, and it shares its tag with
nothing but the other names of the same thing.
-/

namespace FloatFlattening

open Numbering

/-- The kind of a mark, by what it stands in. -/
def Outline.kindOf (o : Outline) (m : Mark) : Label.Kind :=
  if ∃ f ∈ o.figures, f.span.Holds m.span.start then
    if ∃ f ∈ o.figures, ∃ p ∈ f.panels, m ∈ p.marks then .panel else .figure
  else if ∃ table ∈ o.tables, table.span.Holds m.span.start then .table
  else if ∃ s ∈ o.equations, s.Holds m.span.start then .equation
  else .heading

/-- Where a label is counted: the name of a figure where the figure begins, any other label where it
is set. -/
inductive Outline.Counts (o : Outline) (l : Label) : Nat → Prop
  | figure (f : Figure) (mem : f ∈ o.figures) (kind : l.kind = .figure)
      (name : f.name.id? = some l.id) : Counts o l f.span.start
  | mark (m : Mark) (mem : m ∈ o.marks) (kind : l.kind ≠ .figure) (id : m.id = l.id) :
      Counts o l m.span.start

namespace Numbering

/-- What a numbering of a document is to say. -/
structure Faithful (n : Numbering) (o : Outline) : Prop where
  kinds : ∀ m ∈ o.marks, ∃ l, n.get? m.id = some l ∧ l.kind = o.kindOf m
  counts : ∀ kind ≠ .panel,
    (n.own kind).map Label.index = List.range' 1 (n.own kind).length ∧
      ∃ places, List.Forall₂ o.Counts (n.own kind) places ∧ places.Pairwise (· < ·)
  panels : ∀ f ∈ o.figures, ∀ i p, f.panels[i]? = some p → ∀ m ∈ p.marks,
    ∃ l figure letter, n.get? m.id = some l ∧ f.name.id? = some figure.id ∧
      n.get? figure.id = some figure ∧ l.parent = some figure.id ∧ l.index = figure.index ∧
        Panel.letter? i = some letter ∧ l.letter = some letter
  tags : ∀ l ∈ n.labels, ∀ l' ∈ n.labels, n.resolve? l.id = n.resolve? l'.id ↔
    l = l' ∨ l.aliasOf = some l'.id ∨ l'.aliasOf = some l.id ∨
      ∃ target, l.aliasOf = some target ∧ l'.aliasOf = some target

end Numbering

namespace Label

variable {l : Label} {id target : Text} {kind : Label.Kind} {parent : Option Text}
  {letter : Option Char}

theorem entry_eq_own_iff : l.entry = .own id kind parent letter ↔
    l.aliasOf = none ∧ l.id = id ∧ l.kind = kind ∧ l.parent = parent ∧ l.letter = letter := by
  cases h : l.aliasOf <;> simp [entry, h]

theorem entry_eq_further_iff :
    l.entry = .further id target ↔ l.aliasOf = some target ∧ l.id = id := by
  cases h : l.aliasOf <;> simp [entry, h, and_comm]

/-- The id of a label of a kind that is no further name. -/
def Entry.ownOf? (kind : Label.Kind) : Label.Entry → Option Text
  | own id kind' _ _ => if kind' = kind then some id else none
  | further _ _ => none

end Label

open Label.Entry in
theorem Numbering.map_id_own (n : Numbering) (kind : Label.Kind) :
    (n.own kind).map Label.id = n.entries.filterMap (ownOf? kind) := by
  rw [Numbering.own, entries]
  induction n.labels with
  | nil => rfl
  | cons l ls ih =>
    cases target : l.aliasOf with
    | none =>
      by_cases same : l.kind = kind
      · simp [ownOf?, Label.entry, target, same, ← ih]
      · simp [ownOf?, Label.entry, target, same, ← ih]
    | some id =>
      rw [List.filter_cons_of_neg (by simp [target]), ih, List.map_cons, List.filterMap_cons_none]
      simp [Label.entry, target, ownOf?]

namespace Panel

theorem exists_of_mem_entriesFrom {figure : Text} {position : Nat} {ps : List Panel}
    {e : Label.Entry} (h : e ∈ entriesFrom figure position ps) :
    ∃ i, ∃ p : Panel, ps[i]? = some p ∧ e ∈ p.entries figure (position + i) := by
  obtain ⟨⟨p, j⟩, hp, he⟩ := List.mem_flatMap.1 h
  obtain ⟨le, get⟩ := List.mk_mem_zipIdx_iff_le_and_getElem?_sub.1 hp
  exact ⟨j - position, p, get, by rwa [Nat.add_sub_cancel' le]⟩

/-- A panel registers its own label as that of a panel, and others as further names for it. -/
theorem mem_entries_iff {figure : Text} {position : Nat} {p : Panel} {e : Label.Entry} :
    e ∈ p.entries figure position ↔ ∃ first further, p.marks = first :: further ∧
      (e = .own first.id .panel figure (letter? position) ∨
        ∃ m ∈ further, e = .further m.id first.id) := by
  rw [entries]
  cases p.marks with
  | nil => simp
  | cons first further => simp [eq_comm]

end Panel

namespace Site

variable {α : Type} {g : Site → List α} {fs : List Figure} {ms : List Mark}

theorem flatMap_merge_of_mark (h : ∀ m ∈ ms, g (mark m) = []) :
    (merge fs ms).flatMap g = fs.flatMap fun f => g (figure f) := by
  induction ms generalizing fs with
  | nil => rw [merge, List.flatMap_map]
  | cons m ms ih =>
    rw [merge_cons, List.flatMap_append, List.flatMap_cons, h m (by simp), List.nil_append,
      ih fun m hm => h m (by simp [hm]), List.flatMap_map, ← List.flatMap_append,
      List.takeWhile_append_dropWhile]

theorem flatMap_merge_of_figure (h : ∀ f ∈ fs, g (figure f) = []) :
    (merge fs ms).flatMap g = ms.flatMap fun m => g (mark m) := by
  induction ms generalizing fs with
  | nil => simpa [merge, List.flatMap_map] using h
  | cons m ms ih =>
    have early : ((fs.takeWhile (·.span.start ≤ m.span.start)).map figure).flatMap g = [] := by
      rw [List.flatMap_map, List.flatMap_eq_nil_iff]
      intro f hf
      exact h f (List.takeWhile_subset _ hf)
    rw [merge_cons, List.flatMap_append, early, List.nil_append, List.flatMap_cons, List.flatMap_cons,
      ih fun f hf => h f (List.dropWhile_subset _ hf)]

end Site

/-- Where labels are counted that are those of the members of a list. -/
theorem exists_places {α : Type} {ls : List Label} {xs : List α} {id? : α → Option Text}
    {place : α → Nat} (eq : ls.map Label.id = xs.filterMap id?)
    (sorted : xs.Pairwise fun a b => place a < place b) :
    ∃ places, List.Forall₂ (fun l i => ∃ a ∈ xs, id? a = some l.id ∧ place a = i) ls places ∧
      places.Pairwise (· < ·) := by
  induction xs generalizing ls with
  | nil =>
    obtain rfl : ls = [] := by simpa using eq
    exact ⟨[], .nil, .nil⟩
  | cons x xs ih =>
    cases hx : id? x with
    | none =>
      rw [List.filterMap_cons_none hx] at eq
      obtain ⟨places, counted, increasing⟩ := ih eq sorted.of_cons
      refine ⟨places, counted.imp ?_, increasing⟩
      rintro l i ⟨a, ha, same⟩
      exact ⟨a, by simp [ha], same⟩
    | some id =>
      rw [List.filterMap_cons_some hx] at eq
      obtain ⟨l, ls, rfl, rfl, rest⟩ := List.map_eq_cons_iff.1 eq
      obtain ⟨places, counted, increasing⟩ := ih rest sorted.of_cons
      refine ⟨place x :: places, .cons ⟨x, by simp, hx, rfl⟩ (counted.imp ?_), ?_⟩
      · rintro l i ⟨a, ha, same⟩
        exact ⟨a, by simp [ha], same⟩
      · refine List.pairwise_cons.2 ⟨fun i hi => ?_, increasing⟩
        obtain ⟨l, -, a, ha, -, rfl⟩ := exists_left_of_forall₂ counted hi
        exact List.rel_of_pairwise_cons sorted ha

namespace Outline

variable {t figure id target : Text} {o : Outline} {m : Mark} {f : Figure} {p : Panel} {i : Nat}
  {kind : Label.Kind} {parent : Option Text} {letter : Option Char} {e : Label.Entry}

theorem mem_entries_of_panel (hf : f ∈ o.figures) (hid : f.name.id? = some figure)
    (hi : f.panels[i]? = some p) (he : e ∈ p.entries figure i) : e ∈ o.entries := by
  apply mem_entries (figure_mem_sites hf)
  simp only [Site.entries, Figure.entries, hid]
  exact List.mem_cons_of_mem _ (Panel.mem_entriesFrom hi (by simpa using he))

theorem own_figure_mem_entries (hf : f ∈ o.figures) (hid : f.name.id? = some figure) :
    .own figure .figure none none ∈ o.entries :=
  mem_entries (figure_mem_sites hf) (Reads.own_figure_mem o hid)

/-- What a figure registers is its name or comes from one of its panels. -/
theorem mem_entries_of_figure (he : e ∈ f.entries) : ∃ figure, f.name.id? = some figure ∧
    (e = .own figure .figure none none ∨
      ∃ i, ∃ p : Panel, f.panels[i]? = some p ∧ e ∈ p.entries figure i) := by
  rw [Figure.entries] at he
  cases hid : f.name.id? with
  | none => simp [hid] at he
  | some figure =>
    refine ⟨figure, rfl, ?_⟩
    simp only [hid, List.mem_cons] at he
    apply he.imp_right
    intro he
    simpa using Panel.exists_of_mem_entriesFrom he

/-- What a figure registers as a further name is for the own label of a panel. -/
theorem own_of_further_figure (hf : f ∈ o.figures) (he : .further id target ∈ f.entries) :
    ∃ kind parent letter, .own target kind parent letter ∈ o.entries := by
  obtain ⟨figure, hid, he | ⟨i, p, hi, he⟩⟩ := mem_entries_of_figure he
  · cases he
  · obtain ⟨first, further, marks, he | ⟨m, hm, he⟩⟩ := Panel.mem_entries_iff.1 he
    · cases he
    · cases he
      refine ⟨.panel, figure, Panel.letter? i, mem_entries_of_panel hf hid hi ?_⟩
      exact Panel.mem_entries_iff.2 ⟨first, further, marks, .inl rfl⟩

namespace Reads

/-- In a figure that has a mark in it, the mark is one of its body. -/
theorem mem_inSpan_of_holds (h : Reads t o) (apart : o.MarksApart) (hf : f ∈ o.figures)
    (hm : m ∈ o.marks) (holds : f.span.Holds m.span.start) :
    ∃ e, Figure.Reads t e f ∧ m ∈ (Mark.inSpan t e.body).found := by
  obtain ⟨e, lies, reads⟩ := h.exists_figure hf
  refine ⟨e, reads, ?_⟩
  rw [reads.span] at holds
  have lt := h.start_lt_stop hm
  have start := h.apart_start apart lies m (h.marks ▸ hm)
  obtain ⟨before, after, eq, early, late⟩ := h.exists_marks_eq apart lies reads.whole
  rw [eq] at hm
  rcases List.mem_append.1 hm with hm' | hm'
  · have := early m hm'
    have := holds.1
    omega
  · apply (List.mem_append.1 hm').resolve_right
    intro hm'
    have := late m hm'
    obtain ⟨d, hd, span⟩ := lies.ends
    have apart := apart m (eq ▸ hm) d (h.text ▸ hd)
    have := holds.2
    simp only [span] at apart
    omega

/-- A figure that has a mark in it has a name. -/
theorem exists_id?_of_holds (h : Reads t o) (apart : o.MarksApart) (hf : f ∈ o.figures)
    (hm : m ∈ o.marks) (holds : f.span.Holds m.span.start) : ∃ id, f.name.id? = some id := by
  have named := (h.called f hf).exists_id?_of_needsName
  obtain ⟨e, reads, mem⟩ := h.mem_inSpan_of_holds apart hf hm holds
  rcases reads.panels with ⟨multi, -⟩ | ⟨written, eq⟩
  · exact named (.inl multi)
  · by_cases inPanel : Figure.InPanel f.panels m.span
    · obtain ⟨p, hp, place⟩ := inPanel
      refine named (.inr ⟨p, hp, ?_⟩)
      rcases place with covers | ⟨m', hm', -⟩
      · rw [eq] at hp
        obtain ⟨q, -, rfl⟩ := List.mem_map.1 hp
        exact List.ne_nil_of_mem (List.mem_filter.2 ⟨mem, decide_eq_true covers⟩)
      · exact List.ne_nil_of_mem hm'
    · have outer : m ∈ f.marks := by
        rw [reads.marks]
        exact List.mem_filter.2 ⟨mem, by simpa using inPanel⟩
      cases h.called f hf with
      | made k name marks => simp [marks] at outer
      | own name =>
        cases last : f.marks.getLast? with
        | none => simp [List.getLast?_eq_none_iff.1 last] at outer
        | some m' => exact ⟨m'.id, by rw [name, last]; rfl⟩

/-- What a mark registers that a panel owns. -/
theorem entries_of_panel (h : Reads t o) (hf : f ∈ o.figures) (hi : f.panels[i]? = some p)
    (hm : m ∈ p.marks) : ∃ figure, f.name.id? = some figure ∧
      (.own m.id .panel (some figure) (Panel.letter? i) ∈ o.entries ∨ ∃ target,
        .further m.id target ∈ o.entries ∧
          .own target .panel (some figure) (Panel.letter? i) ∈ o.entries) := by
  have hp : p ∈ f.panels := List.mem_of_getElem? hi
  obtain ⟨figure, hid⟩ := (h.called f hf).exists_id? (Figure.mem_visited.2 (.inr ⟨p, hp, hm⟩))
  cases marks : p.marks with
  | nil => simp [marks] at hm
  | cons first further =>
    have own : .own first.id .panel (some figure) (Panel.letter? i) ∈ o.entries := by
      apply mem_entries_of_panel hf hid hi
      exact Panel.mem_entries_iff.2 ⟨first, further, marks, .inl rfl⟩
    refine ⟨figure, hid, ?_⟩
    rw [marks] at hm
    rcases List.mem_cons.1 hm with rfl | hm
    · exact .inl own
    · refine .inr ⟨first.id, mem_entries_of_panel hf hid hi ?_, own⟩
      exact Panel.mem_entries_iff.2 ⟨first, further, marks, .inr ⟨m, hm, rfl⟩⟩

theorem exists_figure_iff (h : Reads t o) {pos : Nat} :
    (∃ f ∈ o.figures, f.span.Holds pos) ↔ o.figureAt? pos ≠ none := by
  rw [Option.ne_none_iff_exists']
  exact exists_congr fun f => h.figureAt?_eq_some_iff.symm

theorem exists_table_iff (h : Reads t o) {pos : Nat} :
    (∃ table ∈ o.tables, table.span.Holds pos) ↔ o.tableAt? pos ≠ none := by
  rw [Option.ne_none_iff_exists']
  exact exists_congr fun table => h.tableAt?_eq_some_iff.symm

/-- What a mark registers that no panel owns. -/
theorem entries_of_mark (h : Reads t o) (apart : o.MarksApart) (floats : o.FloatsApart)
    (hm : m ∈ o.marks) (free : ¬ ∃ f ∈ o.figures, ∃ p ∈ f.panels, m ∈ p.marks) :
    .own m.id (o.kindOf m) none none ∈ o.entries ∨
      ∃ target, .further m.id target ∈ o.entries ∧ .own target (o.kindOf m) none none ∈ o.entries := by
  rw [kindOf, if_congr h.exists_figure_iff rfl rfl, if_neg free, if_congr h.exists_table_iff rfl rfl]
  have visit {e : Label.Entry} (he : e ∈ o.entriesOfMark m) : e ∈ o.entries :=
    mem_entries (mark_mem_sites hm) he
  cases hf : o.figureAt? m.span.start with
  | some f =>
    obtain ⟨mem, holds⟩ := h.figureAt?_eq_some_iff.1 hf
    obtain ⟨figure, hid⟩ := h.exists_id?_of_holds apart mem hm holds
    have own := own_figure_mem_entries mem hid
    by_cases visited : IsVisitedWith f m
    · obtain ⟨m', hm', eq⟩ := Figure.isVisitedWith_iff.1 visited
      obtain ⟨e, -, reads⟩ := h.exists_figure mem
      obtain rfl := h.eq_of_mem_inSpan hm (reads.mem_of_visited hm') (by rw [eq])
      have main := (Figure.mem_visited.1 hm').resolve_right fun panel => free ⟨f, mem, panel⟩
      rw [(h.called f mem).name_of_mainMark? main] at hid
      obtain rfl : m.id = figure := Option.some.inj hid
      exact .inl (by simpa using own)
    · exact .inr ⟨figure, visit (by simp [entriesOfMark, hf, visited, hid]), by simpa using own⟩
  | none =>
    cases ht : o.tableAt? m.span.start with
    | some table =>
      obtain ⟨mem, holds⟩ := h.tableAt?_eq_some_iff.1 ht
      cases hfirst : table.marks.head?.filter (·.span ≠ m.span) with
      | some first =>
        obtain ⟨head, ne⟩ := Option.mem_filter_iff.1 hfirst
        obtain ⟨first_mem, -⟩ := h.first_lt apart mem holds hm head (by simpa using ne)
        refine .inr ⟨first.id, visit ?_, ?_⟩
        · simp only [entriesOfMark, hf, ht, hfirst, List.mem_singleton]
        · simpa using mem_entries (mark_mem_sites first_mem) (h.own_table_mem floats mem head)
      | none =>
        refine .inl (visit ?_)
        simp only [entriesOfMark, hf, ht, hfirst]
        simp
    | none =>
      refine .inl (visit ?_)
      simp [entriesOfMark, hf, ht, inEquation]

/-- What a further name is for is no further name. -/
theorem own_of_further (h : Reads t o) (apart : o.MarksApart) (floats : o.FloatsApart)
    (he : .further id target ∈ o.entries) :
    ∃ kind parent letter, .own target kind parent letter ∈ o.entries := by
  obtain ⟨s, hs, he⟩ := List.mem_flatMap.1 he
  rcases Site.mem_merge hs with ⟨f, hf, rfl⟩ | ⟨m, hm, rfl⟩
  · exact own_of_further_figure hf he
  · rcases h.further_of_mark he with ⟨f, mem, -, hid⟩ | ⟨table, mem, holds, first, head, ne, rfl⟩
    · exact ⟨_, _, _, own_figure_mem_entries mem hid⟩
    · obtain ⟨first_mem, -⟩ := h.first_lt apart mem holds hm head ne
      exact ⟨_, _, _, mem_entries (mark_mem_sites first_mem) (h.own_table_mem floats mem head)⟩

/-- A label that a mark registers and that is no further name is not that of a figure. -/
theorem own_of_mark (h : Reads t o) (apart : o.MarksApart) (hm : m ∈ o.marks)
    (he : .own id kind parent letter ∈ o.entriesOfMark m) : kind ≠ .figure ∧ kind ≠ .panel := by
  rw [entriesOfMark] at he
  cases hf : o.figureAt? m.span.start with
  | some f =>
    obtain ⟨mem, holds⟩ := h.figureAt?_eq_some_iff.1 hf
    obtain ⟨figure, hid⟩ := h.exists_id?_of_holds apart mem hm holds
    simp only [hf, hid] at he
    split at he <;> simp at he
  | none =>
    cases ht : o.tableAt? m.span.start with
    | none =>
      obtain ⟨-, rfl, -⟩ : id = m.id ∧
          kind = (if o.inEquation m.span.start then .equation else .heading) ∧ _ := by
        simpa [hf, ht] using he
      split <;> decide
    | some table =>
      simp only [hf, ht] at he
      split at he
      · simp at he
      · obtain ⟨-, rfl, -⟩ : id = m.id ∧ kind = .table ∧ _ := by simpa using he
        decide

end Reads

/-- What a figure registers that is no further name. -/
theorem own_of_figure (he : .own id kind parent letter ∈ f.entries) :
    ∃ figure, f.name.id? = some figure ∧ (id = figure ∧ kind = .figure ∨
      kind = .panel ∧ parent = some figure) := by
  obtain ⟨figure, hid, he | ⟨i, p, hi, he⟩⟩ := mem_entries_of_figure he
  · cases he
    exact ⟨id, hid, .inl ⟨rfl, rfl⟩⟩
  · obtain ⟨first, further, marks, he | ⟨m, hm, he⟩⟩ := Panel.mem_entries_iff.1 he
    · cases he
      exact ⟨figure, hid, .inr ⟨rfl, rfl⟩⟩
    · cases he

theorem entriesOfMark_cases (o : Outline) (m : Mark) : o.entriesOfMark m = [] ∨
    (∃ target, o.entriesOfMark m = [.further m.id target]) ∨
      ∃ kind, o.entriesOfMark m = [.own m.id kind none none] := by
  rw [entriesOfMark]
  cases o.figureAt? m.span.start with
  | some f =>
    by_cases visited : IsVisitedWith f m
    · simp [visited]
    · cases hid : f.name.id? <;> simp [visited, hid]
  | none =>
    cases o.tableAt? m.span.start with
    | some table => cases hfirst : table.marks.head?.filter (·.span ≠ m.span) <;> simp only [hfirst] <;> simp
    | none => simp

open Label.Entry

/-- The label of a kind that a mark registers. -/
def ownOfMark? (o : Outline) (kind : Label.Kind) (m : Mark) : Option Text :=
  if .own m.id kind none none ∈ o.entriesOfMark m then some m.id else none

theorem filterMap_entriesOfMark (o : Outline) (kind : Label.Kind) (m : Mark) :
    (o.entriesOfMark m).filterMap (ownOf? kind) = (o.ownOfMark? kind m).toList := by
  rcases o.entriesOfMark_cases m with eq | ⟨target, eq⟩ | ⟨kind', eq⟩
  · simp [ownOfMark?, eq]
  · simp [ownOfMark?, eq, ownOf?]
  · by_cases same : kind' = kind
    · simp [ownOfMark?, eq, ownOf?, same]
    · simp [ownOfMark?, eq, ownOf?, same, Ne.symm same]

theorem filterMap_figure_entries (f : Figure) :
    f.entries.filterMap (ownOf? .figure) = f.name.id?.toList := by
  rw [Figure.entries]
  cases f.name.id? with
  | none => rfl
  | some figure =>
    have panels : (Panel.entriesFrom figure 0 f.panels).filterMap (ownOf? .figure) = [] := by
      rw [List.filterMap_eq_nil_iff]
      intro e he
      obtain ⟨i, p, -, he⟩ := Panel.exists_of_mem_entriesFrom he
      obtain ⟨first, further, -, rfl | ⟨m, -, rfl⟩⟩ := Panel.mem_entries_iff.1 he
      · rfl
      · rfl
    simp [ownOf?, panels]

end Outline

namespace Numbering

variable {t : Text} {o : Outline} {n : Numbering} {kind : Label.Kind}

open Label.Entry

/-- The labels of a kind that are no further names, in the order of the document. -/
theorem Registers.map_id_own (h : n.Registers o) (kind : Label.Kind) : (n.own kind).map Label.id =
    o.sites.flatMap fun s => (s.entries o).filterMap (ownOf? kind) := by
  rw [Numbering.map_id_own, h.entries, Outline.entries, List.filterMap_flatMap]

theorem Registers.map_id_own_figure (h : n.Registers o) (reads : o.Reads t) (apart : o.MarksApart) :
    (n.own .figure).map Label.id = o.figures.filterMap (·.name.id?) := by
  rw [h.map_id_own, Outline.sites, Site.flatMap_merge_of_mark, List.filterMap_eq_flatMap_toList]
  · exact List.flatMap_congr fun f _ => Outline.filterMap_figure_entries f
  · intro m hm
    rw [Site.entries, Outline.filterMap_entriesOfMark, Outline.ownOfMark?, if_neg, Option.toList_none]
    intro own
    exact (reads.own_of_mark apart hm own).1 rfl

theorem Registers.map_id_own_mark (h : n.Registers o) (figure : kind ≠ .figure)
    (panel : kind ≠ .panel) :
    (n.own kind).map Label.id = o.marks.filterMap (o.ownOfMark? kind) := by
  rw [h.map_id_own, Outline.sites, Site.flatMap_merge_of_figure, List.filterMap_eq_flatMap_toList]
  · exact List.flatMap_congr fun m _ => o.filterMap_entriesOfMark kind m
  · intro f hf
    rw [Site.entries, List.filterMap_eq_nil_iff]
    intro e he
    cases e with
    | further id target => rfl
    | own id kind' parent letter =>
      obtain ⟨name, -, ⟨-, rfl⟩ | ⟨rfl, -⟩⟩ := Outline.own_of_figure he
      · exact if_neg figure.symm
      · exact if_neg panel.symm

theorem Registers.exists_places (h : n.Registers o) (reads : o.Reads t) (apart : o.MarksApart)
    (outside : kind ≠ .panel) :
    ∃ places, List.Forall₂ o.Counts (n.own kind) places ∧ places.Pairwise (· < ·) := by
  have counts {p : Label → Nat → Prop} {places : List Nat}
      (counted : List.Forall₂ p (n.own kind) places)
      (each : ∀ l i, l.kind = kind → p l i → o.Counts l i) :
      List.Forall₂ o.Counts (n.own kind) places := by
    have kinds : ∀ l ∈ n.own kind, l.kind = kind := fun l hl => (mem_own.1 hl).2.1
    exact ((List.forall₂_and_left _ _).2 ⟨kinds, counted⟩).imp fun l i h => each l i h.1 h.2
  by_cases figure : kind = .figure
  · subst figure
    have sorted : o.figures.Pairwise fun f g => f.span.start < g.span.start := by
      refine reads.pairwise_figures.imp_of_mem fun hf _ order => ?_
      obtain ⟨e, lies, figure⟩ := reads.exists_figure hf
      have := lies.start_lt
      have := lies.body_le
      have := lies.lt_stop
      rw [figure.span] at *
      omega
    obtain ⟨places, counted, increasing⟩ := FloatFlattening.exists_places
      (h.map_id_own_figure reads apart) sorted
    refine ⟨places, counts counted ?_, increasing⟩
    rintro l _ kind ⟨f, hf, name, rfl⟩
    exact .figure f hf kind name
  · have sorted : o.marks.Pairwise fun m m' => m.span.start < m'.span.start := by
      refine reads.pairwise_marks.imp_of_mem fun hm _ order => ?_
      exact (reads.start_lt_stop hm).trans_le order
    obtain ⟨places, counted, increasing⟩ := FloatFlattening.exists_places
      (h.map_id_own_mark figure outside) sorted
    refine ⟨places, counts counted ?_, increasing⟩
    rintro l _ rfl ⟨m, hm, own, rfl⟩
    rw [Outline.ownOfMark?] at own
    split at own
    · exact .mark m hm figure (Option.some.inj own)
    · cases own

theorem Registers.flat (h : n.Registers o) (reads : o.Reads t) (apart : o.MarksApart)
    (floats : o.FloatsApart) : n.Flat where
  target l hl id target := by
    have he : .further l.id id ∈ o.entries := by
      rw [← h.entries, ← Label.entry_eq_further_iff.2 ⟨target, rfl⟩]
      exact List.mem_map_of_mem hl
    obtain ⟨kind, parent, letter, own⟩ := reads.own_of_further apart floats he
    rw [← h.entries] at own
    obtain ⟨l', hl', own⟩ := List.mem_map.1 own
    obtain ⟨none, rfl, -⟩ := Label.entry_eq_own_iff.1 own
    exact ⟨l', hl', rfl, none⟩
  parent l hl panel own := by
    have he : .own l.id l.kind l.parent l.letter ∈ o.entries := by
      rw [← h.entries, ← Label.entry_eq_own_iff.2 ⟨own, rfl, rfl, rfl, rfl⟩]
      exact List.mem_map_of_mem hl
    obtain ⟨s, hs, he⟩ := List.mem_flatMap.1 he
    rcases Site.mem_merge hs with ⟨f, hf, rfl⟩ | ⟨m, hm, rfl⟩
    · obtain ⟨figure, hid, ⟨-, kind⟩ | ⟨-, parent⟩⟩ := Outline.own_of_figure he
      · rw [panel] at kind
        cases kind
      · have ownFigure := Outline.own_figure_mem_entries hf hid
        rw [← h.entries] at ownFigure
        obtain ⟨l', hl', ownFigure⟩ := List.mem_map.1 ownFigure
        obtain ⟨none, rfl, -⟩ := Label.entry_eq_own_iff.1 ownFigure
        exact ⟨l', hl', parent, none⟩
    · exact absurd panel (reads.own_of_mark apart hm he).2

/-- The label of a mark, whether it is registered for itself or as a further name. -/
theorem Registers.exists_kind (h : n.Registers o) (c : n.Consistent) {id : Text} {kind : Label.Kind}
    {parent : Option Text} {letter : Option Char}
    (he : .own id kind parent letter ∈ o.entries ∨ ∃ target,
      .further id target ∈ o.entries ∧ .own target kind parent letter ∈ o.entries) :
    ∃ l, n.get? id = some l ∧ l.kind = kind ∧ l.parent = parent ∧ l.letter = letter ∧
      ∃ l' ∈ n.labels, l'.entry = .own l'.id kind parent letter ∧ l.index = l'.index := by
  have get {e : Label.Entry} (he : e ∈ o.entries) : ∃ l, n.get? e.id = some l ∧ l.entry = e :=
    h.sound.exists_get? (h.entries ▸ he)
  rcases he with own | ⟨target, further, own⟩
  · obtain ⟨l, hl, eq⟩ := get own
    obtain ⟨-, hid, kind, parent, letter⟩ := Label.entry_eq_own_iff.1 eq
    exact ⟨l, hl, kind, parent, letter, l, (mem_of_get? hl).1, by rw [hid, eq], rfl⟩
  · obtain ⟨l, hl, eq⟩ := get further
    obtain ⟨l', hl', eq'⟩ := get own
    obtain ⟨hid, -⟩ := Label.entry_eq_further_iff.1 eq
    obtain ⟨-, rfl, kind, parent, letter⟩ := Label.entry_eq_own_iff.1 eq'
    have mem := (mem_of_get? hl').1
    obtain ⟨tag, same⟩ := c.further (mem_of_get? hl).1 mem hid
    obtain ⟨kind', index, letter'⟩ := (Tag.mk.injEq ..).mp tag
    exact ⟨l, hl, kind'.trans kind, same.trans parent, letter'.trans letter, l', mem, eq', index⟩

/-- The numbering of a document in which no float overlaps another and no label a delimiter. -/
theorem ofOutline_faithful (outline : Outline.ofText t = .ok o) (apart : o.MarksApart)
    (floats : o.FloatsApart) (numbering : ofOutline o = .ok n) : n.Faithful o := by
  have reads := Outline.reads_of_ofText outline
  have h := registers_of_ofOutline numbering
  have c := (steps_of_ofOutline numbering).consistent
  have flat := h.flat reads apart floats
  refine ⟨?_, fun kind outside => ⟨c.indices kind outside, h.exists_places reads apart outside⟩, ?_, ?_⟩
  · intro m hm
    by_cases free : ∃ f ∈ o.figures, ∃ p ∈ f.panels, m ∈ p.marks
    · obtain ⟨f, hf, p, hp, mem⟩ := free
      obtain ⟨i, hi⟩ := List.mem_iff_getElem?.1 hp
      obtain ⟨figure, -, he⟩ := reads.entries_of_panel hf hi mem
      obtain ⟨l, hl, kind, -⟩ := h.exists_kind c he
      have holds := reads.holds_of_visited hf (Figure.mem_visited.2 (.inr ⟨p, hp, mem⟩))
      refine ⟨l, hl, ?_⟩
      rw [kind, Outline.kindOf, if_pos ⟨f, hf, holds⟩, if_pos ⟨f, hf, p, hp, mem⟩]
    · obtain ⟨l, hl, kind, -⟩ := h.exists_kind c (reads.entries_of_mark apart floats hm free)
      exact ⟨l, hl, kind⟩
  · intro f hf i p hi m hm
    obtain ⟨figure, hid, he⟩ := reads.entries_of_panel hf hi hm
    obtain ⟨letter, hletter⟩ := h.exists_letter hf hid hi
    obtain ⟨l, hl, -, parent, hl', l', mem', own', index⟩ := h.exists_kind c he
    obtain ⟨target, -, kind', parent', -⟩ := Label.entry_eq_own_iff.1 own'
    obtain ⟨g, hg, same, index', -⟩ := c.panel flat mem' kind' target
    rw [parent'] at same
    obtain rfl := Option.some.inj same
    exact ⟨l, g, letter, hl, hid, (c.get? _ _).2 ⟨(mem_own.1 hg).1, rfl⟩, parent,
      index.trans index', hletter, hl'.trans hletter⟩
  · intro l hl l' hl'
    rw [c.resolve? hl, c.resolve? hl', Option.some_inj]
    exact c.tag_eq_iff flat hl hl'

theorem ofOutline_faithful_sample : ∃ o n, Outline.ofText sample = .ok o ∧ o.MarksApart ∧
    o.FloatsApart ∧ ofOutline o = .ok n ∧ n.Faithful o := by
  have good : ∃ o, Outline.ofText sample = .ok o ∧ o.MarksApart ∧ o.FloatsApart ∧
      ∃ n, ofOutline o = .ok n ∧ n.labels ≠ [] := by decide +kernel
  obtain ⟨o, ho, apart, floats, n, hn, -⟩ := good
  exact ⟨o, n, ho, apart, floats, hn, ofOutline_faithful ho apart floats hn⟩

end Numbering

end FloatFlattening
