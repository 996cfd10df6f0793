import FloatFlattening.Proofs.Numbering.Thin
import FloatFlattening.Proofs.Outline.Matches
/-!
The numbers of a document in which figures are replaced by plain ones that have their names. All that
is kept has the number that it had.
-/

namespace FloatFlattening

open Numbering

variable {places : Nat → Nat → Prop} {f g : Figure} {m m' : Mark} {p p' : Panel} {s s' : Span}

theorem Panel.Matches.entries_eq (h : p.Matches places p') (figure : Text) (position : Nat) :
    p.entries figure position = p'.entries figure position := by
  have marks := h.marks
  rw [entries, entries]
  generalize p.marks = ms at marks
  generalize p'.marks = ms' at marks
  cases marks with
  | nil => rfl
  | cons hm hms =>
    dsimp only
    rw [hm.id, map_eq_of_forall₂ hms fun m m' hm => by rw [hm.id]]

theorem Panel.entriesFrom_eq {ps ps' : List Panel} (h : List.Forall₂ (Matches places) ps ps') (figure : Text)
    (position : Nat) : entriesFrom figure position ps = entriesFrom figure position ps' := by
  induction h generalizing position with
  | nil => rfl
  | cons hp h ih => rw [entriesFrom_cons, entriesFrom_cons, hp.entries_eq, ih]

namespace Figure

namespace Matches

theorem entries_eq (h : f.Matches places g) (name : f.name = g.name) : f.entries = g.entries := by
  rw [entries, entries, name]
  cases g.name.id? with
  | none => rfl
  | some id => exact congrArg _ (Panel.entriesFrom_eq h.panels id 0)

theorem isVisitedWith_iff (h : f.Matches places g) (aligned : Aligned places) (name : f.name = g.name)
    (hm : m.Matches places m') : IsVisitedWith f m ↔ IsVisitedWith g m' := by
  have same : ∀ k k' : Mark, k.Matches places k' → (k.span = m.span ↔ k'.span = m'.span) :=
    fun k k' hk => hk.span.eq_iff hm.span aligned
  refine or_congr (exists_mem_iff_of_forall₂ h.panels fun p p' hp => exists_mem_iff_of_forall₂ hp.marks same) ?_
  have last := rel_getLast? h.marks
  rw [mainMark?, mainMark?, name]
  split
  · rfl
  · cases hl : f.marks.getLast? <;> cases hl' : g.marks.getLast? <;> rw [hl, hl'] at last <;> cases last
    · rfl
    next k => simpa using same _ _ k

end Matches

/-- What stands for a figure in another document: a figure with one image is kept, and for any other
there is a figure without panels whose only label is the name of the figure. -/
inductive Stands (places : Nat → Nat → Prop) (f g : Figure) : Prop
  | kept (single : ¬ f.IsMulti) (h : f.Matches places g) (name : f.name = g.name) : Stands places f g
  | replaced (multi : f.IsMulti) (span : f.span.Matches places g.span) (panels : g.panels = []) (m : Mark)
      (marks : g.marks = [m]) (name : g.name = .labelled m.id) (same : f.name.id? = some m.id) :
      Stands places f g

namespace Stands

variable (h : f.Stands places g)

include h

theorem span : f.span.Matches places g.span := by
  cases h with
  | kept _ h => exact h.span
  | replaced _ span => exact span

theorem id?_eq : f.name.id? = g.name.id? := by
  cases h with
  | kept _ _ name => rw [name]
  | replaced _ _ _ m _ name same => rw [name, same, FloatName.id?]

theorem entries_sublist : g.entries.Sublist f.entries := by
  cases h with
  | kept _ h name => rw [h.entries_eq name]
  | replaced _ _ panels m _ name same =>
    rw [entries, entries, same, name, panels]
    simp [FloatName.id?]

theorem overfull (full : g.Overfull) : f.Overfull := by
  refine ⟨by rw [h.id?_eq]; exact full.1, ?_⟩
  cases h with
  | kept _ h => exact h.panels.length_eq ▸ full.2
  | replaced _ _ panels => simp [panels, Overfull] at full

end Stands

end Figure

namespace Outline

/-- A mark that no figure to be replaced holds. -/
def Spares (o : Outline) (m : Mark) : Prop := ∀ f ∈ o.figures, f.IsMulti → ¬ f.span.Holds m.span.start

/-- A document in which the figures with several panels or images are replaced. -/
structure Replaced (places : Nat → Nat → Prop) (o o' : Outline) : Prop where
  aligned : Aligned places
  figures : List.Forall₂ (Figure.Stands places) o.figures o'.figures
  tables : List.Forall₂ (Table.Matches places) o.tables o'.tables
  equations : List.Forall₂ (Span.Matches places) o.equations o'.equations
  marks : Woven (fun m m' => m.Matches places m' ∧ o.Spares m)
    (fun ms ms' => (∀ m ∈ ms, ∃ f ∈ o.figures, f.span.Holds m.span.start) ∧
      ∀ m' ∈ ms', ∃ g ∈ o'.figures, g.span.Holds m'.span.start ∧ IsVisitedWith g m') o.marks o'.marks

variable {o o' : Outline} {t t' : Text} {n : Numbering}

theorem perm_entries (o : Outline) :
    o.entries.Perm (o.figures.flatMap Figure.entries ++ o.marks.flatMap o.entriesOfMark) := by
  have sites := (Site.perm_merge o.figures o.marks).flatMap_right (Site.entries o)
  rwa [List.flatMap_append, List.flatMap_map, List.flatMap_map] at sites

/-- A mark of a figure is counted with the figures only. -/
theorem ownOfMark?_eq_none {kind : Label.Kind} (hf : o.figureAt? m.span.start = some f) (figure : kind ≠ .figure) :
    o.ownOfMark? kind m = none := by
  rw [ownOfMark?, if_neg]
  rw [entriesOfMark, hf]
  dsimp only
  split
  · simp
  · cases f.name.id? <;> simp [figure]

theorem entriesOfMark_eq_nil (reads' : o'.Reads t') (hg : g ∈ o'.figures) (holds : g.span.Holds m.span.start)
    (visited : IsVisitedWith g m) : o'.entriesOfMark m = [] := by
  rw [entriesOfMark, reads'.figureAt?_eq_some_iff.2 ⟨hg, holds⟩]
  exact if_pos visited

namespace Replaced

variable (h : o.Replaced places o')

include h

/-- A mark that is kept registers what it registered. -/
theorem entriesOfMark_eq (hm : m.Matches places m') (spares : o.Spares m) :
    o.entriesOfMark m = o'.entriesOfMark m' := by
  have figures : Option.Rel _ (o.figureAt? m.span.start) (o'.figureAt? m'.span.start) :=
    rel_find? h.figures fun f g (hf : f.Stands places g) => decide_eq_decide.2 (hf.span.holds_iff h.aligned hm.span.start)
  have tables : Option.Rel _ (o.tableAt? m.span.start) (o'.tableAt? m'.span.start) :=
    rel_find? h.tables fun _ _ ht => decide_eq_decide.2 (ht.span.holds_iff h.aligned hm.span.start)
  have equation : o.inEquation m.span.start = o'.inEquation m'.span.start :=
    any_eq_of_forall₂ h.equations fun s s' hs => decide_eq_decide.2 (hs.holds_iff h.aligned hm.span.start)
  rw [entriesOfMark, entriesOfMark, equation, hm.id]
  generalize hf : o.figureAt? m.span.start = f? at figures
  generalize o'.figureAt? m'.span.start = f?' at figures
  cases figures with
  | none =>
    generalize o.tableAt? m.span.start = t? at tables
    generalize o'.tableAt? m'.span.start = t?' at tables
    cases tables with
    | none => rfl
    | @some table table' both =>
      have first : Option.Rel (Mark.Matches places) (table.marks.head?.filter (·.span ≠ m.span))
          (table'.marks.head?.filter (·.span ≠ m'.span)) :=
        rel_filter (rel_head? both.marks) fun k k' hk =>
          decide_eq_decide.2 (not_congr (hk.span.eq_iff hm.span h.aligned))
      dsimp only
      generalize table.marks.head?.filter _ = first? at first
      generalize table'.marks.head?.filter _ = first?' at first
      cases first with
      | none => rfl
      | some hk =>
        dsimp only
        rw [hk.id]
  | @some f g both =>
    cases both with
    | replaced multi =>
      have mem := List.mem_of_find?_eq_some hf
      have holds := List.find?_some hf
      exact absurd (of_decide_eq_true holds) (spares f mem multi)
    | kept _ both name =>
      dsimp only
      rw [if_congr (both.isVisitedWith_iff h.aligned name hm) rfl rfl, name]

theorem ownOfMark?_eq (kind : Label.Kind) (hm : m.Matches places m') (spares : o.Spares m) :
    o.ownOfMark? kind m = o'.ownOfMark? kind m' := by
  rw [ownOfMark?, ownOfMark?, h.entriesOfMark_eq hm spares, hm.id]

theorem figures_id?_eq : o.figures.filterMap (·.name.id?) = o'.figures.filterMap (·.name.id?) := by
  rw [List.filterMap_eq_flatMap_toList, List.filterMap_eq_flatMap_toList]
  exact flatMap_eq_of_forall₂ h.figures fun f g hf => congrArg _ hf.id?_eq

variable (reads : o.Reads t) (reads' : o'.Reads t')

include reads'

theorem entries_sublist : (o'.figures.flatMap Figure.entries ++ o'.marks.flatMap o'.entriesOfMark).Sublist
    (o.figures.flatMap Figure.entries ++ o.marks.flatMap o.entriesOfMark) := by
  refine List.Sublist.append (flatMap_sublist_of_forall₂ h.figures fun f g hf => hf.entries_sublist) ?_
  refine h.marks.flatMap_sublist (fun m m' hm => h.entriesOfMark_eq hm.1 hm.2) fun ms ms' parts => ?_
  rw [List.flatMap_eq_nil_iff]
  intro m' hm'
  obtain ⟨g, hg, holds, visited⟩ := parts.2 m' hm'
  exact entriesOfMark_eq_nil reads' hg holds visited

include reads

/-- The labels of a kind are named alike in both documents. -/
theorem map_id_own_eq {n' : Numbering} (apart : o.MarksApart) (apart' : o'.MarksApart) (hn : n.Registers o)
    (hn' : n'.Registers o') {kind : Label.Kind} (panel : kind ≠ .panel) :
    (n'.own kind).map Label.id = (n.own kind).map Label.id := by
  by_cases figure : kind = .figure
  · subst figure
    rw [hn.map_id_own_figure reads apart, hn'.map_id_own_figure reads' apart', h.figures_id?_eq]
  · rw [hn.map_id_own_mark figure panel, hn'.map_id_own_mark figure panel,
      List.filterMap_eq_flatMap_toList, List.filterMap_eq_flatMap_toList]
    refine (h.marks.flatMap_eq (fun m m' hm => ?_) fun ms ms' parts => ?_).symm
    · rw [h.ownOfMark?_eq kind hm.1 hm.2]
    · have old : ms.flatMap (fun m => (o.ownOfMark? kind m).toList) = [] := by
        rw [List.flatMap_eq_nil_iff]
        intro m hm
        obtain ⟨f, hf, holds⟩ := parts.1 m hm
        rw [ownOfMark?_eq_none (reads.figureAt?_eq_some_iff.2 ⟨hf, holds⟩) figure, Option.toList_none]
      have new : ms'.flatMap (fun m => (o'.ownOfMark? kind m).toList) = [] := by
        rw [List.flatMap_eq_nil_iff]
        intro m' hm'
        obtain ⟨g, hg, holds, visited⟩ := parts.2 m' hm'
        rw [ownOfMark?, entriesOfMark_eq_nil reads' hg holds visited]
        rfl
      rw [old, new]

/-- The document is numbered, and what is registered has the tag that it had. -/
theorem exists_numbering (apart : o.MarksApart) (apart' : o'.MarksApart) (numbering : ofOutline o = .ok n) :
    ∃ n', ofOutline o' = .ok n' ∧ ∀ id ∈ n'.ids, id ∈ n.ids ∧ n'.resolve? id = n.resolve? id := by
  have hn := registers_of_ofOutline numbering
  have sub := h.entries_sublist reads'
  have nodup : (o'.entries.map Label.Entry.id).Nodup :=
    (o'.perm_entries.map _).nodup_iff.2 ((sub.map _).nodup ((o.perm_entries.map _).nodup_iff.1 hn.nodup))
  have seated : ∀ s ∈ o'.sites, ¬ s.Overfull := by
    intro s hs full
    rcases Site.mem_merge hs with ⟨g, hg, rfl⟩ | ⟨m, -, rfl⟩
    · obtain ⟨f, hf, stands⟩ := exists_left_of_forall₂ h.figures hg
      exact hn.seated (.figure f) (figure_mem_sites hf) (stands.overfull full)
    · exact full
  obtain ⟨n', numbering'⟩ := exists_ofOutline reads' apart' nodup seated
  have hn' := registers_of_ofOutline numbering'
  refine ⟨n', numbering', fun id mem => hn.resolve?_eq hn' (steps_of_ofOutline numbering).consistent
    (steps_of_ofOutline numbering').consistent (fun e he => ?_) (fun kind panel => ?_) mem⟩
  · exact o.perm_entries.mem_iff.2 (sub.subset (o'.perm_entries.mem_iff.1 he))
  · exact h.map_id_own_eq reads reads' apart apart' hn hn' panel

end Replaced

end Outline

end FloatFlattening
