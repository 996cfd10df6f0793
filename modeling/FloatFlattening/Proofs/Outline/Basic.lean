import FloatFlattening.Proofs.List
import FloatFlattening.Proofs.Outline.Figure
import FloatFlattening.Proofs.Outline.Naming
/-!
What an outline says of its text: its marks are those of the text, its figures and tables lie where
the environments do, and a figure is called by its last mark or, without one, by a made-up label.
-/

namespace FloatFlattening

/-- One of two parts of a text ends before the other begins. -/
def Span.Apart (s r : Span) : Prop := s.stop ≤ r.start ∨ r.stop ≤ s.start

instance (s r : Span) : Decidable (s.Apart r) := inferInstanceAs (Decidable (_ ∨ _))

theorem Span.Apart.symm {s r : Span} (h : s.Apart r) : r.Apart s := Or.symm h

/-- Of spans that come one after the other, any two lie apart. -/
theorem eq_or_apart {α : Type} {span : α → Span} {l : List α} {a b : α}
    (h : l.Pairwise fun a b => (span a).stop ≤ (span b).start) (ha : a ∈ l) (hb : b ∈ l) :
    a = b ∨ (span a).Apart (span b) := by
  induction l with
  | nil => cases ha
  | cons c l ih =>
    rcases List.mem_cons.1 ha with rfl | ha' <;> rcases List.mem_cons.1 hb with rfl | hb'
    · exact .inl rfl
    · exact .inr (.inl (List.rel_of_pairwise_cons h hb'))
    · exact .inr (.inr (List.rel_of_pairwise_cons h ha'))
    · exact ih h.of_cons ha' hb'

/-- Of spans that come one after the other, one at most holds a position. -/
theorem eq_of_holds {α : Type} {span : α → Span} {l : List α} {pos : Nat} {a b : α}
    (h : l.Pairwise fun a b => (span a).stop ≤ (span b).start) (ha : a ∈ l) (hb : b ∈ l)
    (ka : (span a).Holds pos) (kb : (span b).Holds pos) : a = b := by
  induction l with
  | nil => simp at ha
  | cons x l ih =>
    rcases List.mem_cons.1 ha with rfl | ha' <;> rcases List.mem_cons.1 hb with rfl | hb'
    · rfl
    · have := List.rel_of_pairwise_cons h hb'
      have := ka.2
      have := kb.1
      omega
    · have := List.rel_of_pairwise_cons h ha'
      have := kb.2
      have := ka.1
      omega
    · exact ih h.of_cons ha' hb'

theorem find?_holds_eq_some_iff {α : Type} {span : α → Span} {l : List α} {pos : Nat} {a : α}
    (h : l.Pairwise fun a b => (span a).stop ≤ (span b).start) :
    l.find? (fun a => decide ((span a).Holds pos)) = some a ↔ a ∈ l ∧ (span a).Holds pos := by
  constructor
  · intro found
    exact ⟨List.mem_of_find?_eq_some found, by simpa using List.find?_some found⟩
  · rintro ⟨ha, holds⟩
    cases found : l.find? (fun a => decide ((span a).Holds pos)) with
    | none => exact absurd holds (by simpa using List.find?_eq_none.1 found a ha)
    | some b =>
      have hb := List.mem_of_find?_eq_some found
      rw [eq_of_holds h ha hb holds (by simpa using List.find?_some found)]

/-- How a table is read off the environment it is. -/
structure Table.Reads (t : Text) (e : Environment) (table : Table) : Prop where
  span : table.span = e.span
  body : table.body = e.body
  whole : (Mark.inSpan t e.body).stopped = none
  captionsWhole : (Command.inSpan t e.body ["caption"]).stopped = none
  marks : table.marks = (Mark.inSpan t e.body).found
  captions : table.captions = (Command.inSpan t e.body ["caption"]).found

theorem Table.reads_of_ofEnvironment {t : Text} {e : Environment} {table : Table}
    (h : ofEnvironment t e = .ok table) : Reads t e table := by
  simp only [ofEnvironment, Except.bind_eq_ok_iff, Scan.complete_eq_ok_iff] at h
  obtain ⟨_, ⟨captionsWhole, rfl⟩, _, ⟨whole, rfl⟩, h⟩ := h
  obtain rfl := Except.ok.inj h
  exact ⟨rfl, rfl, whole, captionsWhole, rfl, rfl⟩

/-- What a figure is called, where some labels are taken. -/
inductive Figure.Called (taken : List Text) (f : Figure) : Prop
  | own (name : f.name = .ofMark? f.marks.getLast?) (named : f.name = .unnamed → ¬ f.NeedsName)
  | made (k : Nat) (name : f.name = .synthetic (Outline.syntheticLabel k)) (marks : f.marks = [])
      (free : Outline.syntheticLabel k ∉ taken)

theorem Figure.Called.exists_synthetic {taken : List Text} {f : Figure} {id : Text}
    (h : f.Called taken) (made : f.made? = some id) : ∃ k, id = Outline.syntheticLabel k := by
  cases h with
  | own name => cases last : f.marks.getLast? <;> simp [made?, name, last, FloatName.ofMark?] at made
  | made k name =>
    refine ⟨k, ?_⟩
    simpa [made?, name, eq_comm] using made

theorem Outline.Named.called {taken : List Text} {f g : Figure} (h : Named taken f g)
    (name : f.name = .ofMark? f.marks.getLast?) : g.Called taken := by
  cases h with
  | kept named => exact .own name named
  | made k unnamed needs free =>
    refine .made k rfl ?_ free
    rw [unnamed] at name
    cases marks : f.marks.getLast? with
    | none => simpa using marks
    | some m => simp [marks, FloatName.ofMark?] at name

namespace Outline

variable {t : Text} {o : Outline}

/-- How an outline is read off a text. -/
structure Reads (t : Text) (o : Outline) : Prop where
  text : o.text = t
  whole : (Mark.all t).stopped = none
  marks : o.marks = (Mark.all t).found
  figures : List.Forall₂ (Figure.Reads t) (Environment.all t figureNames).found o.figures
  called : ∀ f ∈ o.figures, f.Called (o.marks.map Mark.id)
  nodup_made : (o.figures.filterMap Figure.made?).Nodup
  made_not_mem : ∀ id ∈ o.figures.filterMap Figure.made?, id ∉ o.marks.map Mark.id
  tables : List.Forall₂ (Table.Reads t) (Environment.all t tableNames).found o.tables

/-- What an outline is made of. The figures are as they were before those without a name got one. -/
structure Parses (t : Text) (o : Outline) (raw : List Figure) : Prop where
  figuresWhole : (Environment.all t figureNames).stopped = none
  figures : List.Forall₂ (fun e f => Figure.ofEnvironment t e = .ok f) (Environment.all t figureNames).found raw
  named : o.figures = nameFigures (o.marks.map Mark.id) 0 raw
  tablesWhole : (Environment.all t tableNames).stopped = none
  tables : List.Forall₂ (fun e table => Table.ofEnvironment t e = .ok table) (Environment.all t tableNames).found o.tables
  equationsWhole : (Environment.all t equationNames).stopped = none
  equations : o.equations = (Environment.all t equationNames).found.map Environment.span

theorem exists_parses (h : ofText t = .ok o) : ∃ raw, Parses t o raw := by
  simp only [ofText, Except.bind_eq_ok_iff, Scan.complete_eq_ok_iff, Scan.traverse_eq_ok_iff] at h
  obtain ⟨_, ⟨-, rfl⟩, raw, ⟨figures, hf⟩, tables, ⟨wholeTables, ht⟩, _, ⟨equations, rfl⟩, _, -, h⟩ := h
  obtain rfl := Except.ok.inj h
  exact ⟨raw, figures, hf, rfl, wholeTables, ht, equations, rfl⟩

theorem reads_of_ofText (h : ofText t = .ok o) : Reads t o := by
  simp only [ofText, Except.bind_eq_ok_iff, Scan.complete_eq_ok_iff, Scan.traverse_eq_ok_iff] at h
  obtain ⟨_, ⟨whole, rfl⟩, figures, ⟨-, hf⟩, tables, ⟨-, ht⟩, _, -, _, -, h⟩ := h
  obtain rfl := Except.ok.inj h
  have raw : ∀ f ∈ figures, f.name = .ofMark? f.marks.getLast? := by
    intro f hf'
    obtain ⟨e, -, he⟩ := exists_left_of_forall₂ hf hf'
    exact (Figure.reads_of_ofEnvironment he).2
  have unmade : ∀ f ∈ figures, f.made? = none := by
    intro f hf'
    rw [Figure.made?, raw f hf']
    cases f.marks.getLast? <;> rfl
  have named := forall₂_nameFigures ((Mark.all t).found.map Mark.id) 0 figures
  refine ⟨rfl, whole, rfl, ?_, fun f hf' => ?_, nodup_made unmade 0,
    fun id => not_mem_of_made unmade, ?_⟩
  · refine (forall₂_comp hf named).imp fun e f => ?_
    rintro ⟨g, hg, _ | _⟩
    · exact (Figure.reads_of_ofEnvironment hg).1
    · exact (Figure.reads_of_ofEnvironment hg).1.rename _
  · obtain ⟨g, hg, hgf⟩ := exists_left_of_forall₂ named hf'
    exact hgf.called (raw g hg)
  · exact ht.imp fun e table => Table.reads_of_ofEnvironment

/-- The images of a figure are all that its body shows. -/
theorem graphics_eq (h : ofText t = .ok o) {f : Figure} (mem : f ∈ o.figures) :
    f.graphics = (Graphic.inSpan t f.body).found := by
  obtain ⟨raw, parses⟩ := exists_parses h
  have named := forall₂_nameFigures (o.marks.map Mark.id) 0 raw
  rw [← parses.named] at named
  obtain ⟨g, hg, same⟩ := exists_left_of_forall₂ named mem
  obtain ⟨e, -, made⟩ := exists_left_of_forall₂ parses.figures hg
  have eq : g.graphics = (Graphic.inSpan t g.body).found := by
    simp only [Figure.ofEnvironment, Except.bind_eq_ok_iff, Scan.complete_eq_ok_iff] at made
    obtain ⟨_, ⟨-, rfl⟩, _, -, _, -, _, -, made⟩ := made
    obtain rfl := Except.ok.inj made
    rfl
  cases same <;> exact eq

namespace Reads

variable {f g : Figure} {table table' : Table} {pos : Nat}

theorem exists_figure (h : Reads t o) (hf : f ∈ o.figures) :
    ∃ e, Environment.LiesIn t e ∧ Figure.Reads t e f := by
  obtain ⟨e, he, hef⟩ := exists_left_of_forall₂ h.figures hf
  exact ⟨e, Environment.liesIn_of_mem_all he, hef⟩

theorem exists_table (h : Reads t o) (ht : table ∈ o.tables) :
    ∃ e, Environment.LiesIn t e ∧ Table.Reads t e table := by
  obtain ⟨e, he, het⟩ := exists_left_of_forall₂ h.tables ht
  exact ⟨e, Environment.liesIn_of_mem_all he, het⟩

theorem pairwise_figures (h : Reads t o) :
    o.figures.Pairwise fun f g => f.span.stop ≤ g.span.start := by
  have spans := map_eq_of_forall₂ h.figures fun e f hef => hef.span.symm
  have := List.Pairwise.map (S := fun s s' : Span => s.stop ≤ s'.start) Environment.span
    (fun _ _ h => h) (Environment.pairwise_all t figureNames)
  rwa [spans, List.pairwise_map] at this

theorem pairwise_tables (h : Reads t o) :
    o.tables.Pairwise fun table table' => table.span.stop ≤ table'.span.start := by
  have spans := map_eq_of_forall₂ h.tables fun e table het => het.span.symm
  have := List.Pairwise.map (S := fun s s' : Span => s.stop ≤ s'.start) Environment.span
    (fun _ _ h => h) (Environment.pairwise_all t tableNames)
  rwa [spans, List.pairwise_map] at this

theorem figureAt?_eq_some_iff (h : Reads t o) :
    o.figureAt? pos = some f ↔ f ∈ o.figures ∧ f.span.Holds pos :=
  find?_holds_eq_some_iff h.pairwise_figures

theorem tableAt?_eq_some_iff (h : Reads t o) :
    o.tableAt? pos = some table ↔ table ∈ o.tables ∧ table.span.Holds pos :=
  find?_holds_eq_some_iff h.pairwise_tables

theorem pairwise_marks (h : Reads t o) : o.marks.Pairwise fun m m' => m.span.stop ≤ m'.span.start :=
  h.marks ▸ Mark.pairwise_all

theorem start_lt_stop (h : Reads t o) {m : Mark} (hm : m ∈ o.marks) : m.span.start < m.span.stop := by
  rw [h.marks, Mark.all_eq_inSpan] at hm
  exact (Mark.bounds_of_mem_inSpan hm).2.1

/-- A mark of a figure's body is the mark of the text that begins where it does. -/
theorem eq_of_mem_inSpan (h : Reads t o) {m m' : Mark} {s : Span} (hm : m ∈ o.marks)
    (hm' : m' ∈ (Mark.inSpan t s).found) (start : m.span.start = m'.span.start) : m = m' :=
  Mark.eq_of_mem_all (h.marks ▸ hm) hm' start

end Reads

end Outline

end FloatFlattening
