import FloatFlattening.Proofs.Block
import FloatFlattening.Proofs.Flattening.Dangling
import FloatFlattening.Settings
/-!
Blocks that overlap. Figures lie apart from each other, and so do tables, so that only a flattened figure
and a flattened table can overlap; and no flattening gets past the two.
-/

namespace FloatFlattening

open Numbering

variable {t : Text} {o : Outline} {n : Numbering} {blocks : List Block} {images : List Replacement}
  {withTables : Bool} {b : Block} {last : Nat} {chosen : List (Block × Text)} {flattened : List Text}

namespace Outline

/-- A figure that is to be flattened overlaps a table. -/
def FloatsOverlap (o : Outline) : Prop :=
  ∃ f ∈ o.multiFigures, ∃ table ∈ o.tables, ¬ f.span.Apart table.span

instance : DecidablePred FloatsOverlap := fun o =>
  inferInstanceAs (Decidable (∃ f ∈ o.multiFigures, ∃ table ∈ o.tables, ¬ f.span.Apart table.span))

namespace Reads

theorem pairwise_multiFigures (h : Reads t o) :
    (o.multiFigures.map Figure.span).Pairwise fun s r => s.stop ≤ r.start :=
  List.pairwise_map.2 (h.pairwise_figures.filter _)

/-- The floats that are to be blocks lie apart, but for flattened figures and tables that overlap. -/
theorem pairwise_places_iff (h : Reads t o) :
    ((Block.places withTables o).map Prod.fst).Pairwise Span.Apart ↔
      (withTables = true → ¬ o.FloatsOverlap) := by
  have figures : (o.multiFigures.map Figure.span).Pairwise Span.Apart := h.pairwise_multiFigures.imp .inl
  have tables : (o.tables.map Table.span).Pairwise Span.Apart := List.pairwise_map.2 (h.pairwise_tables.imp .inl)
  have places : (Block.places withTables o).map Prod.fst =
      o.multiFigures.map Figure.span ++ if withTables then o.tables.map Table.span else [] := by
    cases withTables <;> simp [Block.places, Function.comp_def]
  rw [places, List.pairwise_append]
  cases withTables with
  | false => simpa using figures
  | true =>
    simp only [figures, tables, if_true, true_and, forall_const, FloatsOverlap, not_exists, not_and, not_not,
      List.forall_mem_map]

end Reads

end Outline

theorem Block.start_lt_stop (reads : o.Reads t) (h : ofOutline withTables o = .ok blocks) (hb : b ∈ blocks) :
    b.span.start < b.span.stop ∧ b.span.stop ≤ t.length := by
  obtain ⟨e, block⟩ := exists_reads reads h hb
  have := block.lies.start_lt
  have := block.lies.body_le
  have := block.lies.lt_stop
  have := block.lies.stop_le
  rw [block.span]
  omega

namespace Flattened

/-- Where every block has one image, the blocks to replace are all blocks. -/
theorem perm_chosen (all : (images.map Replacement.block).Perm (List.range blocks.length)) :
    ((Flattened.chosen blocks images).map Prod.fst).Perm blocks := by
  have range : (List.range blocks.length).map (blocks[·]?) = blocks.map some :=
    List.ext_getElem (by simp) fun i hi _ => by simp
  have whole : (List.range blocks.length).filterMap (blocks[·]?) = blocks := by
    rw [← Function.id_comp (blocks[·]? : Nat → Option Block), ← List.filterMap_map, range, List.filterMap_map]
    exact List.filterMap_some
  refine ((List.mergeSort_perm _ _).map Prod.fst).trans ?_
  have := all.filterMap (blocks[·]?)
  rw [whole, List.filterMap_map] at this
  rw [List.map_filterMap]
  simpa [Function.comp_def] using this

theorem sorted_chosen : (Flattened.chosen blocks images).Pairwise fun c d => c.1.span.start ≤ d.1.span.start :=
  pairwise_mergeSort_key _ _

/-- The stretches fit just if each block to come begins past the one before it. -/
theorem fits_stretches_iff (start : last ≤ t.length)
    (inside : ∀ c ∈ chosen, c.1.span.start ≤ c.1.span.stop ∧ c.1.span.stop ≤ t.length) :
    (∀ s ∈ stretches t last chosen, s.Fits t) ↔
      (∀ c ∈ chosen, last ≤ c.1.span.start) ∧ chosen.Pairwise fun c d => c.1.span.stop ≤ d.1.span.start := by
  induction chosen generalizing last with
  | nil => simpa [stretches, Stretch.Fits] using start
  | cons c chosen ih =>
    obtain ⟨b, markup⟩ := c
    simp only [List.forall_mem_cons] at inside
    rw [stretches, List.forall_mem_cons, List.forall_mem_cons, ih inside.1.2 inside.2, List.forall_mem_cons,
      List.pairwise_cons]
    simp only [Stretch.Fits]
    constructor
    · rintro ⟨⟨le, -⟩, -, later, apart⟩
      refine ⟨⟨le, fun c hc => ?_⟩, later, apart⟩
      have := later c hc
      omega
    · rintro ⟨⟨le, -⟩, later, apart⟩
      exact ⟨⟨le, by omega⟩, trivial, later, apart⟩

/-- The blocks to replace fit in the text just if no two of them overlap. -/
theorem apart_iff (inside : ∀ b ∈ blocks, b.span.start < b.span.stop ∧ b.span.stop ≤ t.length)
    (all : (images.map Replacement.block).Perm (List.range blocks.length)) :
    Apart t blocks images ↔ (blocks.map Block.span).Pairwise Span.Apart := by
  have perm := perm_chosen all
  have inside : ∀ c ∈ Flattened.chosen blocks images, c.1.span.start < c.1.span.stop ∧ c.1.span.stop ≤ t.length :=
    fun c hc => inside c.1 (mem_of_mem_chosen hc)
  rw [Apart, fits_stretches_iff (Nat.zero_le _) fun c hc => ⟨(inside c hc).1.le, (inside c hc).2⟩,
    ← (perm.map Block.span).pairwise_iff fun h => h.symm, List.map_map, List.pairwise_map]
  constructor
  · exact fun h => h.2.imp .inl
  · intro h
    refine ⟨fun c _ => Nat.zero_le _, (h.and sorted_chosen).imp_of_mem fun hc hd both => ?_⟩
    obtain ⟨apart, le⟩ := both
    have := inside _ hc
    have := inside _ hd
    rcases apart with apart | apart <;> dsimp only [Function.comp] at apart <;> omega

theorem passage_ne_overlap (fits : ∀ s ∈ stretches t last chosen, s.Fits t) :
    passage n flattened t last chosen ≠ .error .overlap := by
  have gap_ne {s : Span} (fits : (Stretch.gap s).Fits t) : gap n flattened t s ≠ .error .overlap := by
    rw [gap_eq, if_neg (Stretch.fits_gap_iff.1 fits)]
    split <;> simp
  induction chosen generalizing last with
  | nil => exact gap_ne (fits _ (by simp [stretches]))
  | cons c chosen ih =>
    obtain ⟨b, markup⟩ := c
    simp only [stretches, List.forall_mem_cons] at fits
    have before := gap_ne fits.1
    have here : replacement n flattened markup b.line ≠ .error .overlap := by
      rw [replacement_eq (t := t)]
      split <;> simp
    have after := ih fits.2.2
    rw [passage]
    generalize gap n flattened t _ = before? at before
    generalize replacement n flattened markup b.line = here? at here
    generalize passage n flattened t b.span.stop chosen = after? at after
    cases before? <;> cases here? <;> cases after? <;> simp_all [bind, Except.bind, pure, Except.pure]

/-- A flattening breaks off only at blocks that overlap. -/
theorem ofText_ne_overlap (apart : Apart t blocks images) : ofText t n blocks images ≠ .error .overlap := by
  have passage : Flattened.passage n ((Flattened.chosen blocks images).filterMap fun c => c.1.name.id?) t 0
      (Flattened.chosen blocks images) ≠ .error .overlap := passage_ne_overlap apart
  simp only [ofText]
  generalize Flattened.passage n _ t 0 _ = p? at passage
  cases p? with
  | error e =>
    intro h
    cases h
    exact passage rfl
  | ok p =>
    rw [Except.ok_bind]
    split <;> simp [throw, throwThe, MonadExceptOf.throw, pure, Except.pure]

theorem apart_of_ofText {f : Flattened} (h : ofText t n blocks images = .ok f) : Apart t blocks images := by
  obtain ⟨p, hp, -⟩ := Except.bind_eq_ok_iff.1 h
  exact fun s hs => (fits_of_passage hp s hs).1

/-- Without flattened tables the blocks lie one after the other, and a flattening ends well or with a fault.
With them it breaks off only if a flattened figure overlaps a table, and then it never ends well. -/
theorem ofText_overlap {settings : Settings} (outline : Outline.ofText t = .ok o)
    (collected : settings.blocks o = .ok blocks)
    (all : (images.map Replacement.block).Perm (List.range blocks.length)) :
    (settings.flattenTables = false →
        (blocks.Pairwise fun b c => b.span.stop ≤ c.span.start) ∧
          ((∃ f, ofText t n blocks images = .ok f) ∨ ∃ e, ofText t n blocks images = .error (.fault e))) ∧
      (settings.flattenTables = true →
        (ofText t n blocks images = .error .overlap → o.FloatsOverlap) ∧
          (o.FloatsOverlap → ∀ f, ofText t n blocks images ≠ .ok f)) := by
  have reads := Outline.reads_of_ofText outline
  have inside {b : Block} (hb : b ∈ blocks) := Block.start_lt_stop reads collected hb
  have places : (blocks.map Block.span).Pairwise Span.Apart ↔ (settings.flattenTables = true → ¬ o.FloatsOverlap) := by
    have perm := (Block.perm_places collected).map Prod.fst
    rw [List.map_map] at perm
    exact (perm.pairwise_iff fun h => h.symm).trans reads.pairwise_places_iff
  have apart := apart_iff (fun b hb => inside hb) all
  constructor
  · intro off
    have spans := places.2 (by simp [off])
    refine ⟨?_, ?_⟩
    · refine ((List.pairwise_map.1 spans).and (Block.sorted_of_ofOutline collected)).imp_of_mem fun hb hc both => ?_
      have := inside hb
      have := inside hc
      rcases both.1 with apart | apart
      · exact apart
      · have := both.2
        omega
    · have breaks := ofText_ne_overlap (n := n) (apart.2 spans)
      cases h : ofText t n blocks images with
      | ok f => exact .inl ⟨f, rfl⟩
      | error e =>
        cases e with
        | fault e => exact .inr ⟨e, rfl⟩
        | overlap => exact absurd h breaks
  · intro on
    constructor
    · intro breaks
      by_contra none
      exact ofText_ne_overlap (apart.2 (places.2 fun _ => none)) breaks
    · intro overlap f ok
      exact places.1 (apart.1 (apart_of_ofText ok)) on overlap

/-- A table in a figure of two images. -/
def tableInFigure : Text :=
  "\\begin\x7bfigure\x7d\\includegraphics\x7ba\x7d\\includegraphics\x7bb\x7d" ++
    "\\begin\x7btable\x7d\\label\x7bt\x7d\\end\x7btable\x7d\\label\x7bf\x7d\\end\x7bfigure\x7d"

def tableInFigureSettings : Settings := { input := "a.tex", output := "a.docx", flattenTables := true }

theorem ofText_overlap_nested : ∃ o, Outline.ofText tableInFigure = .ok o ∧ ∃ n, ofOutline o = .ok n ∧
    ∃ blocks, tableInFigureSettings.blocks o = .ok blocks ∧
      ∀ f, ofText tableInFigure n blocks [⟨0, []⟩, ⟨1, []⟩] ≠ .ok f := by
  have good : ∃ o, Outline.ofText tableInFigure = .ok o ∧ ∃ n, ofOutline o = .ok n ∧
      ∃ figures, o.multiFigures.mapM (Block.ofFigure o.text) = .ok figures ∧
        ∃ tables, o.tables.zipIdx.mapM (fun p => Block.ofTable o.text p.1 p.2) = .ok tables ∧
          (Block.places true o).length = 2 ∧ o.FloatsOverlap := by
    decide +kernel
  obtain ⟨o, ho, n, hn, figures, hf, tables, ht, two, overlap⟩ := good
  obtain ⟨blocks, hb⟩ : ∃ blocks, tableInFigureSettings.blocks o = .ok blocks :=
    ⟨_, Except.bind_eq_ok_iff.2 ⟨figures, hf, Except.bind_eq_ok_iff.2 ⟨tables, ht, rfl⟩⟩⟩
  have all : ([⟨0, []⟩, ⟨1, []⟩].map Replacement.block).Perm (List.range blocks.length) := by
    have length := (Block.perm_places hb).length_eq
    rw [List.length_map, show tableInFigureSettings.flattenTables = true from rfl, two] at length
    rw [length]
    decide
  exact ⟨o, ho, n, hn, blocks, hb, ((ofText_overlap ho hb all).2 rfl).2 overlap⟩

end Flattened

end FloatFlattening
