import FloatFlattening.Proofs.Block
import FloatFlattening.Proofs.Flattening.Dangling
import FloatFlattening.Proofs.Flattening.Visit
import FloatFlattening.Proofs.Numbering.Owner
/-!
References follow what they refer to. A reference to a label that stays in the document stays; one
to a label of a float that is replaced comes to name the float, and the panel if it is in one.
-/

namespace FloatFlattening

open Numbering

variable {t p source : Text} {o : Outline} {n : Numbering} {m first : Mark} {f : Figure}
  {table : Table} {flattened : List Text} {line : Nat}

/-- A float by its name, with a letter for a panel of it. -/
def Reference.lettered (name : Text) : Option Char → Text
  | none => Reference.markup name
  | some letter => Reference.markup name ++ "(" ++ [letter] ++ ")"

namespace Figure

theorem exists_panel (h : ∃ q ∈ f.panels, m ∈ q.marks) :
    ∃ i q, f.panels[i]? = some q ∧ m ∈ q.marks ∧ f.letterOf? m = Panel.letter? i := by
  cases hi : f.panels.findIdx? fun q => m ∈ q.marks with
  | none =>
    obtain ⟨q, hq, hm⟩ := h
    simpa [hm] using List.findIdx?_eq_none_iff.1 hi q hq
  | some i =>
    obtain ⟨lt, hm, -⟩ := List.findIdx?_eq_some_iff_getElem.1 hi
    exact ⟨i, f.panels[i], List.getElem?_eq_getElem lt, by simpa using hm, by simp [letterOf?, hi]⟩

theorem letterOf?_eq_none (h : ¬ ∃ q ∈ f.panels, m ∈ q.marks) : f.letterOf? m = none := by
  have : f.panels.findIdx? (fun q => m ∈ q.marks) = none :=
    List.findIdx?_eq_none_iff.2 fun q hq => by simpa using fun hm => h ⟨q, hq, hm⟩
  simp [letterOf?, this]

end Figure

namespace Outline.Reads

/-- A label registered for a panel is neither the name of the figure nor of another float. -/
theorem markup_in_panel (h : n.Registers o) {i : Nat} {q : Panel} (hf : f ∈ o.figures)
    (hid : f.name.id? = some p) (hi : f.panels[i]? = some q) (hm : m ∈ q.marks)
    (floats : ∀ name ∈ flattened, ∃ kind, kind ≠ .panel ∧ .own name kind none none ∈ n.entries) :
    m.id ≠ p ∧ (Visit.of n flattened m.id line).markup source =
      if p ∈ flattened then Reference.lettered p (Panel.letter? i) else source := by
  obtain ⟨letter, hl⟩ := h.exists_letter hf hid hi
  have site := figure_mem_sites hf
  have own := h.mem_of_site site (own_figure_mem o hid)
  have mem {e : Label.Entry} (he : e ∈ q.entries p i) : e ∈ n.entries := by
    refine h.mem_of_site site ?_
    simp only [Site.entries, Figure.entries, hid]
    exact List.mem_cons_of_mem _ (Panel.mem_entriesFrom hi (by simpa using he))
  rw [hl]
  cases marks : q.marks with
  | nil => simp [marks] at hm
  | cons first further =>
    simp only [Panel.entries, marks, hl, List.mem_cons] at mem hm
    have hfirst := mem (.inl rfl)
    rcases hm with rfl | hm
    · refine ⟨fun eq => ?_, Visit.markup_of_panel h.sound hfirst⟩
      cases h.eq_entry hfirst own eq
    · have further := mem (.inr (List.mem_map_of_mem hm))
      refine ⟨fun eq => ?_, Visit.markup_of_further_panel h.sound further hfirst fun float => ?_⟩
      · cases h.eq_entry further own eq
      · obtain ⟨kind, ne, hk⟩ := floats first.id float
        cases h.eq_entry hfirst hk rfl

theorem markup_in_figure (reads : Reads t o) (h : n.Registers o) (hm : m ∈ o.marks)
    (hf : f ∈ o.figures) (holds : f.span.Holds m.span.start) (hid : f.name.id? = some p)
    (floats : ∀ name ∈ flattened, ∃ kind, kind ≠ .panel ∧ .own name kind none none ∈ n.entries) :
    (Visit.of n flattened m.id line).markup source =
      if m.id ≠ p ∧ p ∈ flattened then Reference.lettered p (f.letterOf? m) else source := by
  have own := h.mem_of_site (figure_mem_sites hf) (own_figure_mem o hid)
  by_cases panel : ∃ q ∈ f.panels, m ∈ q.marks
  · obtain ⟨i, q, hi, hq, letter⟩ := Figure.exists_panel panel
    obtain ⟨ne, markup⟩ := markup_in_panel h hf hid hi hq floats
    simpa [ne, letter] using markup
  · by_cases main : f.mainMark? = some m
    · rw [(reads.called f hf).name_of_mainMark? main] at hid
      obtain rfl : m.id = p := Option.some.inj hid
      simpa using Visit.markup_of_own h.sound own
    · have visited : ¬ IsVisitedWith f m := by
        rintro visited
        obtain ⟨m', hm', eq⟩ := Figure.isVisitedWith_iff.1 visited
        obtain ⟨e, -, figure⟩ := reads.exists_figure hf
        obtain rfl := reads.eq_of_mem_inSpan hm (figure.mem_of_visited hm') (by rw [eq])
        exact (Figure.mem_visited.1 hm').elim main panel
      have at_ := reads.figureAt?_eq_some_iff.2 ⟨hf, holds⟩
      have further : .further m.id p ∈ n.entries :=
        h.mem_of_site (mark_mem_sites hm) (by simp [Site.entries, entriesOfMark, at_, visited, hid])
      have ne : m.id ≠ p := fun eq => by cases h.eq_entry further own eq
      rw [Visit.markup_of_further h.sound further own, Figure.letterOf?_eq_none panel]
      simp [ne, Reference.lettered]

theorem markup_in_table (reads : Reads t o) (h : n.Registers o) (apart : o.FloatsApart)
    (hm : m ∈ o.marks) (ht : table ∈ o.tables) (holds : table.span.Holds m.span.start)
    (head : table.marks.head? = some first) (hfirst : first ∈ o.marks) :
    (Visit.of n flattened m.id line).markup source =
      if m.id ≠ first.id ∧ first.id ∈ flattened then Reference.markup first.id else source := by
  have own := h.mem_of_site (mark_mem_sites hfirst) (reads.own_table_mem apart ht head)
  by_cases span : first.span = m.span
  · obtain ⟨e, -, table⟩ := reads.exists_table ht
    have mem := List.mem_of_head? head
    rw [table.marks] at mem
    obtain rfl := reads.eq_of_mem_inSpan hm mem (by rw [span])
    simpa using Visit.markup_of_own h.sound own
  · have none := reads.figureAt?_eq_none apart ht holds
    have at_ := reads.tableAt?_eq_some_iff.2 ⟨ht, holds⟩
    have further : .further m.id first.id ∈ n.entries :=
      h.mem_of_site (mark_mem_sites hm)
        (by simp [Site.entries, entriesOfMark, none, at_, head, span, Option.filter])
    have ne : m.id ≠ first.id := fun eq => by cases h.eq_entry further own eq
    rw [Visit.markup_of_further h.sound further own]
    simp [ne]

theorem holds_of_figure (reads : Reads t o) (hm : m ∈ o.marks) (hf : f ∈ o.figures)
    (covers : f.body.Covers m.span) : f.span.Holds m.span.start := by
  obtain ⟨e, lies, figure⟩ := reads.exists_figure hf
  rw [figure.body] at covers
  rw [figure.span]
  exact lies.holds_span ⟨covers.1, Nat.lt_of_lt_of_le (reads.start_lt_stop hm) covers.2⟩

theorem holds_of_table (reads : Reads t o) (hm : m ∈ o.marks) (ht : table ∈ o.tables)
    (covers : table.body.Covers m.span) : table.span.Holds m.span.start := by
  obtain ⟨e, lies, table⟩ := reads.exists_table ht
  rw [table.body] at covers
  rw [table.span]
  exact lies.holds_span ⟨covers.1, Nat.lt_of_lt_of_le (reads.start_lt_stop hm) covers.2⟩

theorem exists_id?_of_isMulti (reads : Reads t o) (hf : f ∈ o.figures) (multi : f.IsMulti) :
    ∃ p, f.name.id? = some p := by
  cases hn : f.name with
  | labelled p | synthetic p => exact ⟨p, rfl⟩
  | unnamed =>
    cases reads.called f hf with
    | own name named => exact absurd (.inl multi) (named hn)
    | made k name => simp [name] at hn

theorem marks_ne_nil (reads : Reads t o) (hm : m ∈ o.marks) (ht : table ∈ o.tables)
    (covers : table.body.Covers m.span) : table.marks ≠ [] := by
  obtain ⟨e, lies, table⟩ := reads.exists_table ht
  rw [table.body] at covers
  obtain ⟨m', hm', -⟩ := Mark.exists_inSpan_holds lies (reads.marks ▸ hm) covers table.whole
  rw [table.marks]
  exact List.ne_nil_of_mem hm'

/-- A mark stands in a figure that has a name, in a table that has a label, or in no float that a
block may stand for. -/
theorem place (reads : Reads t o) (h : n.Registers o) (apart : o.FloatsApart) (hm : m ∈ o.marks) :
    (∃ f ∈ o.figures, f.span.Holds m.span.start ∧ ∃ p, f.name.id? = some p) ∨
      (∃ table ∈ o.tables, table.span.Holds m.span.start ∧
        ∃ first, table.marks.head? = some first) ∨
      (∃ kind, .own m.id kind none none ∈ n.entries) ∧
        ∀ b body letter?, Block.IsOf o b body letter? → ¬ body.Covers m.span := by
  have own {kind : Label.Kind} (he : .own m.id kind none none ∈ o.entriesOfMark m) :
      ∃ kind, .own m.id kind none none ∈ n.entries :=
    ⟨kind, h.mem_of_site (mark_mem_sites hm) he⟩
  cases hf : o.figureAt? m.span.start with
  | some f =>
    obtain ⟨mem, holds⟩ := reads.figureAt?_eq_some_iff.1 hf
    cases hid : f.name.id? with
    | some p => exact .inl ⟨f, mem, holds, p, hid⟩
    | none =>
      have visited : ¬ IsVisitedWith f m := fun visited => by
        obtain ⟨m', hm', -⟩ := Figure.isVisitedWith_iff.1 visited
        obtain ⟨p, some⟩ := (reads.called f mem).exists_id? hm'
        simp [hid] at some
      refine .inr (.inr ⟨own (by simp [entriesOfMark, hf, visited, hid]; rfl), ?_⟩)
      rintro b body letter? (⟨g, mem', multi, -, -⟩ | ⟨table, mem', -, -⟩) covers
      · obtain rfl : g = f := by
          simpa [hf, eq_comm] using
            reads.figureAt?_eq_some_iff.2 ⟨mem', reads.holds_of_figure hm mem' covers⟩
        obtain ⟨p, some⟩ := reads.exists_id?_of_isMulti mem multi
        simp [hid] at some
      · simp [reads.figureAt?_eq_none apart mem' (reads.holds_of_table hm mem' covers)] at hf
  | none =>
    have noFigure {g : Figure} (mem : g ∈ o.figures) : ¬ g.body.Covers m.span := fun covers => by
      have some := reads.figureAt?_eq_some_iff.2 ⟨mem, reads.holds_of_figure hm mem covers⟩
      simp [hf] at some
    cases ht : o.tableAt? m.span.start with
    | some table =>
      obtain ⟨mem, holds⟩ := reads.tableAt?_eq_some_iff.1 ht
      cases head : table.marks.head? with
      | some first => exact .inr (.inl ⟨table, mem, holds, first, head⟩)
      | none =>
        refine .inr (.inr ⟨own (by simp [entriesOfMark, hf, ht, head]; rfl), ?_⟩)
        rintro b body letter? (⟨g, mem', -, -, -⟩ | ⟨table', mem', -, -⟩) covers
        · exact noFigure mem' covers
        · obtain rfl : table' = table := by
            simpa [ht, eq_comm] using
              reads.tableAt?_eq_some_iff.2 ⟨mem', reads.holds_of_table hm mem' covers⟩
          exact reads.marks_ne_nil hm mem covers (List.head?_eq_none_iff.1 head)
    | none =>
      refine .inr (.inr ⟨own (by simp [entriesOfMark, hf, ht]; rfl), ?_⟩)
      rintro b body letter? (⟨g, mem', -, -, -⟩ | ⟨table, mem', -, -⟩) covers
      · exact noFigure mem' covers
      · have some := reads.tableAt?_eq_some_iff.2 ⟨mem', reads.holds_of_table hm mem' covers⟩
        simp [ht] at some

end Outline.Reads

namespace Flattened

variable {blocks : List Block} {images : List Replacement} {withTables : Bool}

/-- The names of the floats that are replaced. -/
def names (blocks : List Block) (images : List Replacement) : List Text :=
  (chosen blocks images).filterMap fun c => c.1.name.id?

/-- A flattened document is made of its stretches. -/
theorem eq_join_of_ofText {f : Flattened} (h : ofText t n blocks images = .ok f) :
    (∀ s ∈ stretches t 0 (chosen blocks images), s.Fits t) ∧
      ∃ p, p = Passage.join ((stretches t 0 (chosen blocks images)).map
        (Stretch.passage n (names blocks images) t)) ∧
          f.text = p.text ∧ f.directivesRemoved = p.directives := by
  simp only [ofText, Except.bind_eq_ok_iff] at h
  obtain ⟨p, hp, h⟩ := h
  have fits := fits_of_passage hp
  rw [passage_eq_ok (fun s hs => (fits s hs).1) fun s hs => (fits s hs).2] at hp
  refine ⟨fun s hs => (fits s hs).1, p, (Except.ok.inj hp).symm, ?_⟩
  split at h
  · obtain rfl := Except.ok.inj h
    exact ⟨rfl, rfl⟩
  · cases h

theorem text_of_ofText {f : Flattened} (h : ofText t n blocks images = .ok f) :
    f.text = (stretches t 0 (chosen blocks images)).flatMap fun s =>
      (s.passage n (names blocks images) t).text := by
  obtain ⟨-, p, rfl, text, -⟩ := eq_join_of_ofText h
  rw [text, Passage.text_join, List.flatMap_map]

theorem directives_of_ofText {f : Flattened} (h : ofText t n blocks images = .ok f) :
    f.directivesRemoved = ((stretches t 0 (chosen blocks images)).map fun s =>
      (s.passage n (names blocks images) t).directives).sum := by
  obtain ⟨-, p, rfl, -, directives⟩ := eq_join_of_ofText h
  rw [directives, Passage.directives_join, List.map_map]
  rfl

theorem owns_of_isOf {b : Block} {body : Span} {letter? : Mark → Option Char} {name : Text}
    (named : o.TablesNamed) (isOf : b.IsOf o body letter?) (hn : b.name.id? = some name) :
    o.Owns b.span name := by
  cases isOf with
  | figure f mem multi span eq => exact span ▸ .figure f mem (eq ▸ hn)
  | table table mem span eq =>
    rw [eq] at hn
    cases head : table.marks.head? with
    | none => simp [head, FloatName.ofMark?, FloatName.id?] at hn
    | some first =>
      obtain rfl : first.id = name := by simpa [head, FloatName.ofMark?, FloatName.id?] using hn
      exact span ▸ .table table mem head (named table mem first head)

theorem exists_owns (collected : Block.ofOutline withTables o = .ok blocks) (named : o.TablesNamed)
    {name : Text} (h : name ∈ names blocks images) :
    ∃ c ∈ chosen blocks images, o.Owns c.1.span name := by
  obtain ⟨c, hc, hn⟩ := List.mem_filterMap.1 h
  obtain ⟨body, letter?, isOf⟩ := Block.exists_isOf collected (mem_of_mem_chosen hc)
  exact ⟨c, hc, owns_of_isOf named isOf hn⟩

/-- References follow the labels of the document. -/
theorem ofText_faithful {f : Flattened} (outline : Outline.ofText t = .ok o)
    (numbering : ofOutline o = .ok n) (collected : Block.ofOutline withTables o = .ok blocks)
    (success : ofText t n blocks images = .ok f) (apart : o.FloatsApart) (named : o.TablesNamed) :
    (f.text = (stretches t 0 (chosen blocks images)).flatMap fun s =>
        (s.passage n (names blocks images) t).text) ∧
      ∀ r ∈ visited t blocks images, ∀ m ∈ o.marks, m.id = r.target → ∀ source,
        ((∀ c ∈ chosen blocks images, ¬ c.1.span.Holds m.span.start) →
          (Stretch.visit n (names blocks images) r).markup source = source) ∧
        ∀ c ∈ chosen blocks images, ∃ body letter?, c.1.IsOf o body letter? ∧
          (body.Covers m.span → ∃ p, c.1.name.id? = some p ∧
            (Stretch.visit n (names blocks images) r).markup source =
              if m.id = p then source else Reference.lettered p (letter? m)) := by
  have reads := Outline.reads_of_ofText outline
  have registers := registers_of_ofOutline numbering
  have floats : ∀ name ∈ names blocks images,
      ∃ kind, kind ≠ .panel ∧ .own name kind none none ∈ n.entries := by
    intro name hname
    obtain ⟨c, -, owns⟩ := exists_owns collected named hname
    rw [registers.entries]
    exact reads.entry_of_owns apart owns
  -- A float that keeps its place shares its name with none that does not.
  have kept {span : Span} {p : Text} {pos : Nat} (owns : o.Owns span p) (holds : span.Holds pos)
      (outside : ∀ c ∈ chosen blocks images, ¬ c.1.span.Holds pos) :
      p ∉ names blocks images := by
    intro mem
    obtain ⟨c, hc, owns'⟩ := exists_owns collected named mem
    exact outside c hc (reads.eq_of_owns apart registers.nodup owns owns' ▸ holds)
  refine ⟨text_of_ofText success, fun r _ m hm target source => ?_⟩
  rw [Stretch.visit, ← target]
  rcases reads.place registers apart hm with
    ⟨f, mem, holds, p, hid⟩ | ⟨table, mem, holds, first, head⟩ | ⟨⟨kind, own⟩, out⟩
  · rw [reads.markup_in_figure registers hm mem holds hid floats]
    refine ⟨fun outside => if_neg fun h => kept (.figure f mem hid) holds outside h.2, fun c hc => ?_⟩
    obtain ⟨body, letter?, isOf⟩ := Block.exists_isOf collected (mem_of_mem_chosen hc)
    refine ⟨body, letter?, isOf, fun covers => ?_⟩
    cases isOf with
    | figure g mem' multi span name =>
      obtain rfl : g = f :=
        eq_of_holds reads.pairwise_figures mem' mem (reads.holds_of_figure hm mem' covers) holds
      have hn : c.1.name.id? = some p := name ▸ hid
      have hp : p ∈ names blocks images := List.mem_filterMap.2 ⟨c, hc, hn⟩
      exact ⟨p, hn, by by_cases eq : m.id = p <;> simp [eq, hp]⟩
    | table table mem' =>
      have none := reads.figureAt?_eq_none apart mem' (reads.holds_of_table hm mem' covers)
      simp [reads.figureAt?_eq_some_iff.2 ⟨mem, holds⟩] at none
  · have hfirst := named table mem first head
    rw [reads.markup_in_table registers apart hm mem holds head hfirst]
    refine ⟨fun outside => if_neg fun h => kept (.table table mem head hfirst) holds outside h.2,
      fun c hc => ?_⟩
    obtain ⟨body, letter?, isOf⟩ := Block.exists_isOf collected (mem_of_mem_chosen hc)
    refine ⟨body, letter?, isOf, fun covers => ?_⟩
    cases isOf with
    | figure g mem' =>
      have none := reads.figureAt?_eq_none apart mem holds
      simp [reads.figureAt?_eq_some_iff.2 ⟨mem', reads.holds_of_figure hm mem' covers⟩] at none
    | table table' mem' span name =>
      obtain rfl : table' = table :=
        eq_of_holds reads.pairwise_tables mem' mem (reads.holds_of_table hm mem' covers) holds
      have hn : c.1.name.id? = some first.id := by rw [name, head]; rfl
      have hp : first.id ∈ names blocks images := List.mem_filterMap.2 ⟨c, hc, hn⟩
      exact ⟨first.id, hn, by by_cases eq : m.id = first.id <;> simp [eq, hp, Reference.lettered]⟩
  · rw [Visit.markup_of_own registers.sound own]
    refine ⟨fun _ => rfl, fun c hc => ?_⟩
    obtain ⟨body, letter?, isOf⟩ := Block.exists_isOf collected (mem_of_mem_chosen hc)
    exact ⟨body, letter?, isOf, fun covers => absurd covers (out c.1 body letter? isOf)⟩

/-- A figure to be replaced, and a table with two labels. -/
def mixed : Text :=
  "\\begin\x7bfigure\x7d\\subfloat\x7b\\includegraphics\x7bx\x7d\\includegraphics\x7by\x7d" ++
    "\\label\x7ba\x7d\x7d\\label\x7bf\x7d\\end\x7bfigure\x7d" ++
    "\\begin\x7btable\x7d\\label\x7bt\x7d\\label\x7bu\x7d\\end\x7btable\x7d\\ref\x7bu\x7d\\ref\x7ba\x7d"

theorem ofText_faithful_mixed : ∃ o, Outline.ofText mixed = .ok o ∧ ∃ n, ofOutline o = .ok n ∧
    ∃ blocks, Block.ofOutline false o = .ok blocks ∧
      ∃ f, ofText mixed n blocks sampleImages = .ok f ∧ o.FloatsApart ∧ o.TablesNamed ∧
        ∃ r ∈ visited mixed blocks sampleImages, ∃ m ∈ o.marks, m.id = r.target ∧
          ∀ source, (Stretch.visit n (names blocks sampleImages) r).markup source = source := by
  have good : ∃ o, Outline.ofText mixed = .ok o ∧ ∃ n, ofOutline o = .ok n ∧
      ∃ blocks, Block.ofOutline false o = .ok blocks ∧
        ∃ f, ofText mixed n blocks sampleImages = .ok f ∧ o.FloatsApart ∧ o.TablesNamed ∧
          ∃ r ∈ visited mixed blocks sampleImages, ∃ m ∈ o.marks, m.id = r.target ∧
            ∀ c ∈ chosen blocks sampleImages, ¬ c.1.span.Holds m.span.start := by
    set_option synthInstance.maxSize 256 in decide +kernel
  obtain ⟨o, ho, n, hn, blocks, hb, f, hf, apart, named, r, hr, m, hm, target, outside⟩ := good
  have faithful := (ofText_faithful ho hn hb hf apart named).2 r hr m hm target
  exact ⟨o, ho, n, hn, blocks, hb, f, hf, apart, named, r, hr, m, hm, target,
    fun source => (faithful source).1 outside⟩

/-- A table in the argument of a label, with a label that a figure has as well. -/
def nested : Text :=
  "\\label\x7b\\begin\x7btable\x7d\\label\x7bx\x7d\\end\x7btable\x7d\x7d" ++
    "\\begin\x7bfigure\x7d\\subfloat\x7b\\label\x7ba\x7d\x7d\\label\x7bx\x7d\\end\x7bfigure\x7d\\ref\x7ba\x7d"

/-- When the table is replaced, a reference to a panel of the figure, which stays, is exchanged. -/
theorem exists_misdirected : ∃ o, Outline.ofText nested = .ok o ∧ ∃ n, ofOutline o = .ok n ∧
    ∃ blocks, Block.ofOutline true o = .ok blocks ∧
      ∃ f, ofText nested n blocks [⟨0, []⟩] = .ok f ∧ o.FloatsApart ∧
        ∃ r ∈ visited nested blocks [⟨0, []⟩], ∃ m ∈ o.marks, m.id = r.target ∧
          (∀ c ∈ chosen blocks [⟨0, []⟩], ¬ c.1.span.Holds m.span.start) ∧
            (Stretch.visit n (names blocks [⟨0, []⟩]) r).markup "\\ref\x7ba\x7d" ≠ "\\ref\x7ba\x7d" := by
  decide +kernel

end Flattened

end FloatFlattening
