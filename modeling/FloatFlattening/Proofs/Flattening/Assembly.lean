import FloatFlattening.Proofs.Flattening.Exchange
import FloatFlattening.Proofs.Flattening.Faithful
import FloatFlattening.Proofs.Flattening.Overlap
import FloatFlattening.Proofs.Pattern
/-!
How a flattened document is put together. Gap and float alternate in the order of the document; in both all
stays but the references that are exchanged, and gaps then lose their directives. In which order the images
come does not matter.
-/

namespace FloatFlattening

open Text

/-- A text from a position on, with spans of it exchanged one after the other. All between them stays. -/
inductive Substituted : (pos : Nat) → Text → List (Span × Text) → Text → Prop
  | rest (pos : Nat) (kept : Text) : Substituted pos kept [] kept
  | next {pos : Nat} {s : Span} {kept old new rest rest' : Text} {later : List (Span × Text)}
      (start : s.start = pos + kept.length) (stop : s.stop = s.start + old.length)
      (then_ : Substituted s.stop rest later rest') :
      Substituted pos (kept ++ (old ++ rest)) ((s, new) :: later) (kept ++ (new ++ rest'))

/-- Spans that come one after the other, between two positions. -/
structure InOrder (last stop : Nat) (ss : List Span) : Prop where
  le : last ≤ stop
  inside : ∀ s ∈ ss, last ≤ s.start ∧ s.start ≤ s.stop ∧ s.stop ≤ stop
  pairwise : ss.Pairwise fun s r => s.stop ≤ r.start

variable {t : Text} {last mid stop : Nat} {s : Span} {ss : List Span} {values : List (Span × Text)}

theorem InOrder.tail (h : InOrder last stop (s :: ss)) : InOrder s.stop stop ss where
  le := (h.inside s List.mem_cons_self).2.2
  inside r hr := by
    have := h.inside r (List.mem_cons_of_mem _ hr)
    have := List.rel_of_pairwise_cons h.pairwise hr
    omega
  pairwise := h.pairwise.of_cons

theorem InOrder.sublist {rs : List Span} (h : InOrder last stop ss) (sub : rs.Sublist ss) : InOrder last stop rs :=
  ⟨h.le, fun s hs => h.inside s (sub.subset hs), h.pairwise.sublist sub⟩

namespace Text

theorem slice_append_splice (le : last ≤ mid) (h : InOrder mid stop (values.map Prod.fst)) (hstop : stop ≤ t.length) :
    t.slice ⟨last, mid⟩ ++ t.splice stop mid values = t.splice stop last values := by
  cases values with
  | nil => exact slice_append t le h.le hstop
  | cons e values =>
    obtain ⟨s, value⟩ := e
    obtain ⟨start, le', le''⟩ := h.inside s (by simp)
    rw [splice, splice, ← List.append_assoc, ← List.append_assoc, slice_append t le start (by omega)]

theorem substituted_splice (h : InOrder last stop (values.map Prod.fst)) (hstop : stop ≤ t.length) :
    Substituted last (t.slice ⟨last, stop⟩) values (t.splice stop last values) := by
  induction values generalizing last with
  | nil => exact .rest _ _
  | cons e values ih =>
    obtain ⟨s, value⟩ := e
    obtain ⟨start, le, le'⟩ := h.inside s (by simp)
    have parts : t.slice ⟨last, stop⟩ = t.slice ⟨last, s.start⟩ ++ (t.slice s ++ t.slice ⟨s.stop, stop⟩) := by
      rw [slice_append t le le' hstop, slice_append t start (le.trans le') hstop]
    rw [parts, splice, List.append_assoc]
    exact .next (by simp; omega) (by simp; omega) (ih h.tail)

end Text

namespace Reference

/-- The references that are exchanged, and what takes the place of each. -/
def exchanges (n : Numbering) (flattened : List Text) (rs : List Reference) : List (Span × Text) :=
  rs.filterMap fun r => ((n.get? r.target).bind (n.exchanged? flattened)).map (r.span, ·)

variable {n : Numbering} {flattened : List Text} {r : Reference} {rs : List Reference}

theorem exchanges_cons :
    exchanges n flattened (r :: rs) =
      match (n.get? r.target).bind (n.exchanged? flattened) with
      | none => exchanges n flattened rs
      | some markup => (r.span, markup) :: exchanges n flattened rs := by
  rw [exchanges, List.filterMap_cons]
  cases (n.get? r.target).bind (n.exchanged? flattened) <;> rfl

theorem sublist_exchanges (n : Numbering) (flattened : List Text) (rs : List Reference) :
    ((exchanges n flattened rs).map Prod.fst).Sublist (rs.map span) := by
  induction rs with
  | nil => exact .slnil
  | cons r rs ih =>
    rw [exchanges_cons]
    split
    · exact ih.cons _
    · exact ih.cons_cons _

theorem inOrder_inSpan (le : s.start ≤ s.stop) : InOrder s.start s.stop ((inSpan t s).found.map span) where
  le := le
  inside r hr := by
    simp only [inSpan, Scan.found_map, List.map_map, List.mem_map] at hr
    obtain ⟨c, hc, rfl⟩ := hr
    have := Command.bounds_of_mem_inSpan hc
    have := Command.start_lt_stop hc
    simp only [Function.comp, ofCommand]
    omega
  pairwise := by
    simp only [inSpan, Scan.found_map, List.map_map]
    exact List.pairwise_map.2 Command.pairwise_found

end Reference

theorem Visit.markup_eq (n : Numbering) (flattened : List Text) (target source : Text) (line : Nat) :
    (of n flattened target line).markup source = ((n.get? target).bind (n.exchanged? flattened)).getD source := by
  rw [of]
  cases n.get? target with
  | none => rfl
  | some l =>
    dsimp only [Option.bind_some]
    cases n.exchanged? flattened l <;> rfl

namespace Flattened

variable {n : Numbering} {flattened : List Text} {rs : List Reference} {blocks : List Block}
  {images images' : List Replacement} {chosen : List (Block × Text)}

/-- References that are not exchanged are as what lies between them. -/
theorem splice_exchanges (h : InOrder last stop (rs.map Reference.span)) (hstop : stop ≤ t.length) :
    t.splice stop last (rs.map fun r => (r.span, (Stretch.visit n flattened r).markup (t.slice r.span))) =
      t.splice stop last (Reference.exchanges n flattened rs) := by
  induction rs generalizing last with
  | nil => rfl
  | cons r rs ih =>
    obtain ⟨start, le, le'⟩ := h.inside r.span (by simp)
    have later : InOrder r.span.stop stop ((Reference.exchanges n flattened rs).map Prod.fst) :=
      h.tail.sublist (Reference.sublist_exchanges n flattened rs)
    rw [List.map_cons, splice, ih h.tail, Stretch.visit, Visit.markup_eq, Reference.exchanges_cons]
    cases (n.get? r.target).bind (n.exchanged? flattened) with
    | some markup => rfl
    | none =>
      dsimp only [Option.getD_none]
      rw [slice_append t start le (by omega), slice_append_splice (start.trans le) later hstop]

theorem substituted_exchange (n : Numbering) (flattened : List Text)
    (h : InOrder s.start s.stop (rs.map Reference.span)) (hstop : s.stop ≤ t.length) :
    Substituted s.start (t.slice s) (Reference.exchanges n flattened rs) (exchange t s (Stretch.visit n flattened) rs) := by
  rw [exchange, splice_exchanges h hstop]
  exact substituted_splice (h.sublist (Reference.sublist_exchanges n flattened rs)) hstop

/-- What comes of the text between two blocks. -/
def Gap (n : Numbering) (flattened : List Text) (t : Text) (s : Span) (directives : Nat) (out : Text) : Prop :=
  ∃ text, Substituted s.start (t.slice s) (Reference.exchanges n flattened (Reference.inSpan t s).found) text ∧
    Directive.pattern.Erased directives text out

/-- What comes of the float that takes the place of a block. -/
def Placed (n : Numbering) (flattened : List Text) (markup out : Text) : Prop :=
  Substituted 0 markup (Reference.exchanges n flattened (Reference.all markup).found) out

/-- The new document from `last` on, with the given blocks still to come. -/
inductive Assembled (n : Numbering) (flattened : List Text) (t : Text) :
    (last : Nat) → List (Block × Text) → (directives : Nat) → Text → Prop
  | last {last directives : Nat} {out : Text} (gap : Gap n flattened t ⟨last, t.length⟩ directives out) :
      Assembled n flattened t last [] directives out
  | next {last before after : Nat} {b : Block} {markup out out' out'' : Text} {rest : List (Block × Text)}
      (gap : Gap n flattened t ⟨last, b.span.start⟩ before out) (float : Placed n flattened markup out')
      (later : Assembled n flattened t b.span.stop rest after out'') :
      Assembled n flattened t last ((b, markup) :: rest) (before + after) (out ++ (out' ++ out''))

theorem gap_passage (n : Numbering) (flattened : List Text) (fits : (Stretch.gap s).Fits t) :
    Gap n flattened t s ((Stretch.gap s).passage n flattened t).directives ((Stretch.gap s).passage n flattened t).text :=
  ⟨_, substituted_exchange n flattened (Reference.inOrder_inSpan fits.1) fits.2, Directive.erased_erase _⟩

theorem placed_passage (n : Numbering) (flattened : List Text) (t markup : Text) (line : Nat) :
    Placed n flattened markup ((Stretch.float markup line).passage n flattened t).text := by
  have spans : ((Stretch.float markup line).references t).found.map Reference.span =
      (Reference.all markup).found.map Reference.span := by
    simp [Stretch.references, Function.comp_def]
  have same : Reference.exchanges n flattened ((Stretch.float markup line).references t).found =
      Reference.exchanges n flattened (Reference.all markup).found := by
    simp [Stretch.references, Reference.exchanges, List.filterMap_map]
  have order := Reference.inOrder_inSpan (t := markup) (s := ⟨0, markup.length⟩) (Nat.zero_le _)
  rw [show Reference.inSpan markup ⟨0, markup.length⟩ = Reference.all markup by
    simp [Reference.inSpan, Reference.all, Command.all_eq_inSpan], ← spans] at order
  have substituted := substituted_exchange n flattened order le_rfl
  rwa [slice_self, same] at substituted

theorem assembled_stretches (fits : ∀ s ∈ stretches t last chosen, s.Fits t) :
    Assembled n flattened t last chosen
      ((stretches t last chosen).map fun s => (s.passage n flattened t).directives).sum
      ((stretches t last chosen).flatMap fun s => (s.passage n flattened t).text) := by
  induction chosen generalizing last with
  | nil =>
    simp only [stretches, List.forall_mem_singleton] at fits
    simpa [stretches] using Assembled.last (gap_passage n flattened fits)
  | cons c chosen ih =>
    obtain ⟨b, markup⟩ := c
    simp only [stretches, List.forall_mem_cons] at fits
    have float := placed_passage n flattened t markup b.line
    have none : ((Stretch.float markup b.line).passage n flattened t).directives = 0 := rfl
    simpa [stretches, none] using Assembled.next (gap_passage n flattened fits.1) float (ih fits.2.2)

/-- The blocks that images are for, each with the float that is to take its place. -/
def selected (blocks : List Block) (images : List Replacement) : List (Block × Text) :=
  images.filterMap fun r => (blocks[r.block]?).map (·, r.markup)

/-- Images for different blocks, which lie in the text apart from each other. Images without a block do not
count. -/
structure Selects (t : Text) (blocks : List Block) (images : List Replacement) : Prop where
  nodup : ((images.map Replacement.block).filter (· < blocks.length)).Nodup
  inside : ∀ r ∈ images, ∀ b ∈ blocks[r.block]?, b.span.start < b.span.stop ∧ b.span.stop ≤ t.length
  apart : ∀ r ∈ images, ∀ r' ∈ images, ∀ b ∈ blocks[r.block]?, ∀ b' ∈ blocks[r'.block]?,
    r.block ≠ r'.block → b.span.Apart b'.span

instance : Decidable (Selects t blocks images) :=
  have : ∀ r r' : Replacement, Decidable (∀ b ∈ blocks[r.block]?, ∀ b' ∈ blocks[r'.block]?, r.block ≠ r'.block →
      b.span.Apart b'.span) := fun _ _ => inferInstance
  decidable_of_iff
    (((images.map Replacement.block).filter (· < blocks.length)).Nodup ∧
      (∀ r ∈ images, ∀ b ∈ blocks[r.block]?, b.span.start < b.span.stop ∧ b.span.stop ≤ t.length) ∧
      ∀ r ∈ images, ∀ r' ∈ images, ∀ b ∈ blocks[r.block]?, ∀ b' ∈ blocks[r'.block]?,
        r.block ≠ r'.block → b.span.Apart b'.span)
    ⟨fun ⟨nodup, inside, apart⟩ => ⟨nodup, inside, apart⟩, fun ⟨nodup, inside, apart⟩ => ⟨nodup, inside, apart⟩⟩

theorem perm_selected (blocks : List Block) (images : List Replacement) :
    (Flattened.chosen blocks images).Perm (selected blocks images) :=
  List.mergeSort_perm _ _

theorem chosen_of_sorted (h : (selected blocks images).Pairwise fun c d => c.1.span.start ≤ d.1.span.start) :
    Flattened.chosen blocks images = selected blocks images :=
  List.mergeSort_of_pairwise (by simpa [selected] using h)

theorem selected_filter (blocks : List Block) (images : List Replacement) :
    selected blocks (images.filter (·.block < blocks.length)) = selected blocks images := by
  rw [selected, List.filterMap_filter]
  refine List.filterMap_congr fun r _ => ?_
  by_cases h : r.block < blocks.length <;> simp [h]

theorem length_chosen (blocks : List Block) (images : List Replacement) :
    (Flattened.chosen blocks images).length = images.countP (·.block < blocks.length) := by
  rw [(perm_selected blocks images).length_eq, selected, List.length_filterMap_eq_countP]
  refine List.countP_congr fun r _ => ?_
  by_cases h : r.block < blocks.length <;> simp [h]

theorem ofText_congr (same : Flattened.chosen blocks images = Flattened.chosen blocks images') :
    ofText t n blocks images = ofText t n blocks images' := by
  simp only [ofText, same]

theorem exchanges_nil (n : Numbering) (rs : List Reference) : Reference.exchanges n [] rs = [] := by
  refine List.filterMap_eq_nil_iff.2 fun r _ => ?_
  cases n.get? r.target with
  | none => rfl
  | some l =>
    have panel : (n.rootOf l).flattenedPanel? [] = none := by
      cases h : (n.rootOf l).flattenedPanel? [] with
      | none => rfl
      | some p => simpa using (Label.flattenedPanel?_eq_some h).1
    simp [Numbering.exchanged?, panel]

theorem Selects.nodup_starts (h : Selects t blocks images) :
    ((selected blocks images).map fun c => c.1.span.start).Nodup := by
  have blocksDiffer : images.Pairwise fun r r' => r.block < blocks.length → r'.block < blocks.length → r.block ≠ r'.block := by
    have := h.nodup
    rw [List.Nodup, List.pairwise_filter, List.pairwise_map] at this
    exact this.imp fun differ hr hr' => differ (by simpa using hr) (by simpa using hr')
  rw [List.Nodup, List.pairwise_map, selected, List.pairwise_filterMap]
  refine blocksDiffer.imp_of_mem fun {r r'} hr hr' differ => ?_
  intro c hc c' hc' eq
  simp only [Option.map_eq_some_iff] at hc hc'
  obtain ⟨b, hb, rfl⟩ := hc
  obtain ⟨b', hb', rfl⟩ := hc'
  have := h.inside r hr b hb
  have := h.inside r' hr' b' hb'
  dsimp only at eq
  rcases h.apart r hr r' hr' b hb b' hb'
    (differ (List.getElem?_eq_some_iff.1 hb).1 (List.getElem?_eq_some_iff.1 hb').1) with apart | apart <;> omega

/-- Blocks in order are determined by which they are. -/
theorem Selects.chosen_eq (h : Selects t blocks images) (perm : images'.Perm images) :
    Flattened.chosen blocks images' = Flattened.chosen blocks images := by
  have same : (selected blocks images').Perm (selected blocks images) := perm.filterMap _
  have mem {images : List Replacement} {c : Block × Text} (hc : c ∈ Flattened.chosen blocks images) :
      c ∈ selected blocks images := (perm_selected blocks images).subset hc
  refine List.Perm.eq_of_pairwise (fun c d hc hd le le' => ?_) sorted_chosen sorted_chosen
    ((perm_selected blocks images').trans (same.trans (perm_selected blocks images).symm))
  exact List.inj_on_of_nodup_map h.nodup_starts (same.subset (mem hc)) (mem hd) (Nat.le_antisymm le le')

theorem text_of_no_images {f : Flattened} (h : ofText t n blocks [] = .ok f)
    (directives : Directive.pattern.occursIn t = false) : f.text = t := by
  have fits : (Stretch.gap ⟨0, t.length⟩).Fits t := ⟨Nat.zero_le _, le_rfl⟩
  have text := text_of_ofText h
  simp only [Flattened.chosen, List.filterMap_nil, List.mergeSort_nil, stretches, List.flatMap_singleton, names] at text
  rw [text, Stretch.passage]
  dsimp only
  rw [Stretch.references, exchange, splice_exchanges (Reference.inOrder_inSpan fits.1) le_rfl, exchanges_nil, splice,
    slice_self, Directive.erase, Pattern.erase, Pattern.exchange_of_occursIn directives]

/-- A flattened document is gap, float, gap and so on in the order of the document; in each all stays but the
references that are exchanged, and the directives of the gaps. It has a float for each image of a block, images
of none do nothing, and the order of the images makes no difference. -/
theorem ofText_assembled (selects : Selects t blocks images) :
    (∀ f, ofText t n blocks images = .ok f →
      (∃ chosen : List (Block × Text), chosen.Perm (selected blocks images) ∧
        (chosen.Pairwise fun c d => c.1.span.stop ≤ d.1.span.start) ∧
          Assembled n (chosen.filterMap fun c => c.1.name.id?) t 0 chosen f.directivesRemoved f.text) ∧
        f.blocksReplaced = images.countP (·.block < blocks.length)) ∧
      ofText t n blocks (images.filter (·.block < blocks.length)) = ofText t n blocks images ∧
      (∀ images', images'.Perm images → ofText t n blocks images' = ofText t n blocks images) ∧
      ∀ f, ofText t n blocks [] = .ok f → Directive.pattern.occursIn t = false → f.text = t := by
  refine ⟨fun f h => ⟨⟨Flattened.chosen blocks images, perm_selected _ _, ?_, ?_⟩, ?_⟩, ofText_congr ?_,
    fun images' perm => ofText_congr (selects.chosen_eq perm), fun f => text_of_no_images⟩
  · refine ((fits_stretches_iff (Nat.zero_le _) fun c hc => ?_).1 (apart_of_ofText h)).2
    obtain ⟨r, hr, eq⟩ := List.mem_filterMap.1 ((perm_selected blocks images).subset hc)
    obtain ⟨b, hb, rfl⟩ := Option.map_eq_some_iff.1 eq
    exact ⟨(selects.inside r hr b hb).1.le, (selects.inside r hr b hb).2⟩
  · rw [directives_of_ofText h, text_of_ofText h]
    exact assembled_stretches (apart_of_ofText h)
  · rw [← length_chosen]
    obtain ⟨p, -, h⟩ := Except.bind_eq_ok_iff.1 h
    split at h
    · obtain rfl := Except.ok.inj h
      rfl
    · cases h
  · have same := selected_filter blocks images
    rw [selected, selected] at same
    rw [Flattened.chosen, Flattened.chosen, same]

/-- Two figures of two images, the last of which has a label, with a directive and a reference between them. -/
def twoFigures : Text :=
  "\\begin\x7bfigure\x7d\\includegraphics\x7ba\x7d\\includegraphics\x7bb\x7d\\label\x7bf\x7d\\end\x7bfigure\x7d" ++
    "\\setcounter\x7bfigure\x7d\x7b7\x7d\\ref\x7bf\x7d" ++
    "\\begin\x7bfigure\x7d\\includegraphics\x7bc\x7d\\includegraphics\x7bd\x7d\\label\x7bg\x7d\\end\x7bfigure\x7d"

/-- Images of the first figure, of none and of the second. -/
def twoImages : List Replacement := [⟨0, "one\\ref\x7bg\x7d"⟩, ⟨2, "none"⟩, ⟨1, "two"⟩]

theorem ofText_assembled_two : ∃ o, Outline.ofText twoFigures = .ok o ∧ ∃ n, Numbering.ofOutline o = .ok n ∧
    ∃ blocks, o.multiFigures.mapM (Block.ofFigure o.text) = .ok blocks ∧ Selects twoFigures blocks twoImages ∧
      ∃ f, ofText twoFigures n blocks twoImages.reverse = .ok f ∧ f.blocksReplaced = 2 ∧
        f.text = "one\\ref\x7bfig:multifig2\x7d(b)\\ref\x7bfig:multifig1\x7d(b)two" ∧
          ∃ chosen : List (Block × Text), chosen.Perm (selected blocks twoImages) ∧
            Assembled n (chosen.filterMap fun c => c.1.name.id?) twoFigures 0 chosen f.directivesRemoved f.text := by
  have good : ∃ o, Outline.ofText twoFigures = .ok o ∧ ∃ n, Numbering.ofOutline o = .ok n ∧
      ∃ blocks, o.multiFigures.mapM (Block.ofFigure o.text) = .ok blocks ∧ Selects twoFigures blocks twoImages ∧
        twoImages.countP (·.block < blocks.length) = 2 ∧
        ((selected blocks twoImages).Pairwise fun c d => c.1.span.start ≤ d.1.span.start) ∧
        ∃ p, passage n ((selected blocks twoImages).filterMap fun c => c.1.name.id?) twoFigures 0
            (selected blocks twoImages) = .ok p ∧
          p.text = "one\\ref\x7bfig:multifig2\x7d(b)\\ref\x7bfig:multifig1\x7d(b)two" ∧
            Dangling.firsts (p.visits.filterMap Visit.dangling?) = [] := by
    decide +kernel
  obtain ⟨o, ho, n, hn, blocks, hb, selects, count, sorted, p, passage, text, known⟩ := good
  have ok : ∃ f, ofText twoFigures n blocks twoImages = .ok f ∧ f.text = p.text := by
    simp only [ofText, chosen_of_sorted sorted, passage, Except.ok_bind, known]
    exact ⟨_, rfl, rfl⟩
  obtain ⟨f, hf, same⟩ := ok
  obtain ⟨assembled, -, orders, -⟩ := ofText_assembled (n := n) selects
  obtain ⟨⟨chosen, perm, -, parts⟩, replaced⟩ := assembled f hf
  exact ⟨o, ho, n, hn, blocks, hb, selects, f, (orders _ (List.reverse_perm _)).trans hf, replaced.trans count,
    same.trans text, chosen, perm, parts⟩

end Flattened

end FloatFlattening
