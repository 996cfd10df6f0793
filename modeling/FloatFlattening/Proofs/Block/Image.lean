import FloatFlattening.Proofs.Block
import FloatFlattening.Proofs.Numbering.Faithful
import FloatFlattening.Proofs.Outline.Split
/-!
The images of a figure's block: those of its panels, each with the letter that the place of its panel
gives it. The numbering gives the labels of the panels the same letters.
-/

namespace FloatFlattening

namespace Block

variable {t : Text} {o : Outline} {f : Figure} {b : Block} {blocks : List Block} {withTables : Bool}
  {p : Panel} {i : Nat} {images : List Image} {image : Image}

/-- The images of the panel at a position. -/
def ofPanel (p : Panel) (i : Nat) : List Image :=
  p.graphics.map fun g => ⟨g.path, shareInPanel p g, p.label?, Panel.letter? i⟩

theorem imagesOfPanel_eq_ok_iff :
    imagesOfPanel t p i = .ok images ↔ i < Panel.maxCount ∧ images = ofPanel p i := by
  rw [← not_le, ← Panel.letter?_eq_none_iff, imagesOfPanel, ofPanel]
  cases Panel.letter? i with
  | none => simp
  | some letter => simp [pure, Except.pure, eq_comm]

theorem imagesOfFigure_ok (h : imagesOfFigure t f = .ok images) (panels : f.panels ≠ []) :
    images = f.panels.zipIdx.flatMap (fun (p, i) => ofPanel p i) ∧ ∀ i < f.panels.length, i < Panel.maxCount := by
  rw [imagesOfFigure, if_neg (by simpa using panels), Except.bind_eq_ok_iff] at h
  obtain ⟨parts, made, h⟩ := h
  obtain rfl := Except.ok.inj h
  have made := Except.mapM_eq_ok_iff.1 made
  constructor
  · have parts : f.panels.zipIdx.map (fun (p, i) => ofPanel p i) = parts.map id :=
      map_eq_of_forall₂ made fun _ _ ok => (imagesOfPanel_eq_ok_iff.1 ok).2.symm
    rw [List.flatMap_def, parts, List.map_id]
  · intro i lt
    obtain ⟨part, -, ok⟩ := exists_right_of_forall₂ made
      (List.mk_mem_zipIdx_iff_getElem?.2 (List.getElem?_eq_getElem lt))
    exact (imagesOfPanel_eq_ok_iff.1 ok).1

/-- The images of panels are in the order of their letters. -/
theorem pairwise_letter (ps : List Panel) : (ps.zipIdx.flatMap fun (p, i) => ofPanel p i).Pairwise
    fun x y => ∀ c ∈ x.letter, ∀ d ∈ y.letter, c ≤ d := by
  refine List.pairwise_flatMap.2 ⟨fun (p, i) _ => ?_, ?_⟩
  · refine List.pairwise_map.2 (List.pairwise_of_forall fun _ _ c hc d hd => ?_)
    obtain rfl := Option.mem_unique hc hd
    exact Char.le_refl c
  · have positions : ps.zipIdx.Pairwise fun x y => x.2 < y.2 := by
      rw [← List.pairwise_map, List.zipIdx_map_snd]
      exact List.pairwise_lt_range'
    refine positions.imp fun lt x hx y hy c hc d hd => ?_
    obtain ⟨_, -, rfl⟩ := List.mem_map.1 hx
    obtain ⟨_, -, rfl⟩ := List.mem_map.1 hy
    exact Std.le_of_lt (Panel.letter?_lt hc hd lt)

theorem exists_panel_of_mem {ps : List Panel} (h : image ∈ ps.zipIdx.flatMap fun (p, i) => ofPanel p i) :
    ∃ i, ∃ p : Panel, ps[i]? = some p ∧ image.letter = Panel.letter? i ∧ image.label = p.label? := by
  obtain ⟨⟨p, i⟩, hp, h⟩ := List.mem_flatMap.1 h
  obtain ⟨_, -, rfl⟩ := List.mem_map.1 h
  exact ⟨i, p, List.mk_mem_zipIdx_iff_getElem?.1 hp, rfl, rfl⟩

/-- The figure of a figure's block. -/
theorem exists_figure (h : ofOutline withTables o = .ok blocks) (hb : b ∈ blocks) (kind : b.kind = .figure) :
    ∃ f ∈ o.figures, f.IsMulti ∧ b.span = f.span ∧ b.name = f.name ∧
      imagesOfFigure o.text f = .ok b.images := by
  obtain ⟨b, used, made, rfl⟩ := exists_made h hb
  cases made with
  | figure f mem multi made =>
    obtain ⟨-, images, span, -, name, -⟩ := ofFigure_ok made
    exact ⟨f, mem, multi, span, name, images⟩
  | table table position mem made => cases (ofTable_ok made).1.symm.trans kind

theorem exists_block_of_figure (h : ofOutline withTables o = .ok blocks) (hf : f ∈ o.figures) (multi : f.IsMulti) :
    ∃ b ∈ blocks, b.kind = .figure ∧ b.span = f.span := by
  rw [ofOutline, Except.bind_eq_ok_iff] at h
  obtain ⟨figures, made, h⟩ := h
  obtain ⟨tables, rfl⟩ : ∃ tables, blocks = (separateStems [] (figures ++ tables)).mergeSort
      fun a b => a.span.start ≤ b.span.start := by
    cases withTables with
    | false => exact ⟨[], (Except.ok.inj h).symm⟩
    | true =>
      obtain ⟨tables, -, h⟩ := Except.bind_eq_ok_iff.1 h
      exact ⟨tables, (Except.ok.inj h).symm⟩
  obtain ⟨b, hb, made⟩ := exists_right_of_forall₂ (Except.mapM_eq_ok_iff.1 made)
    (List.mem_filter.2 ⟨hf, decide_eq_true multi⟩)
  obtain ⟨stem, mem⟩ := exists_mem_separateStems [] (List.mem_append_left tables hb)
  obtain ⟨kind, -, span, -⟩ := ofFigure_ok made
  exact ⟨_, List.mem_mergeSort.2 mem, kind, span⟩

end Block

namespace Numbering

/-- A numbering agrees with a figure's block on the letters of its panels. -/
structure Agrees (n : Numbering) (b : Block) (figure : Label) : Prop where
  name : b.name.id? = some figure.id
  registered : n.get? figure.id = some figure
  kind : figure.kind = .figure
  lettered : ∀ image ∈ b.images, ∃ letter, image.letter = some letter
  inOrder : b.images.Pairwise fun x y => ∀ c ∈ x.letter, ∀ d ∈ y.letter, c ≤ d
  panels : ∀ image ∈ b.images, ∀ id, image.label = some id →
    ∃ l, n.get? id = some l ∧ l.kind = .panel ∧ l.aliasOf = none ∧ l.parent = some figure.id ∧
      l.index = figure.index ∧ l.letter = image.letter

variable {t : Text} {o : Outline} {n : Numbering} {b : Block} {blocks : List Block} {withTables : Bool}
  {f : Figure}

/-- What is registered for the label of a panel. -/
theorem Registers.exists_label_of_panel (h : n.Registers o) (c : n.Consistent) (hf : f ∈ o.figures)
    {figure : Label} (hid : f.name.id? = some figure.id) (registered : n.get? figure.id = some figure)
    {i : Nat} {p : Panel} (hi : f.panels[i]? = some p) {id : Text} (label : p.label? = some id) :
    ∃ l, n.get? id = some l ∧ l.kind = .panel ∧ l.aliasOf = none ∧ l.parent = some figure.id ∧
      l.index = figure.index ∧ l.letter = Panel.letter? i := by
  -- The first label of a panel is registered for itself, the others as its aliases.
  obtain ⟨first, head, rfl⟩ := Option.map_eq_some_iff.1 label
  obtain ⟨further, marks⟩ := List.head?_eq_some_iff.1 head
  have entry : .own first.id .panel (some figure.id) (Panel.letter? i) ∈ n.entries := by
    rw [h.entries]
    exact Outline.mem_entries_of_panel hf hid hi (Panel.mem_entries_iff.2 ⟨first, further, marks, .inl rfl⟩)
  obtain ⟨l, found, own⟩ := h.sound.exists_get? entry
  obtain ⟨target, -, kind, parent, letter⟩ := Label.entry_eq_own_iff.1 own
  refine ⟨l, found, kind, target, parent, ?_, letter⟩
  obtain ⟨before, sub, follows⟩ := c.exists_follows (mem_of_get? found).1
  obtain ⟨g, hg, parent', -, index⟩ := follows.parent kind target
  have same : g.id = figure.id := Option.some.inj (parent'.symm.trans parent)
  rw [index, c.eq_of_id (sub hg) (mem_of_get? registered).1 same]

theorem agrees_of_ofOutline (outline : Outline.ofText t = .ok o) (numbering : ofOutline o = .ok n)
    (collected : Block.ofOutline withTables o = .ok blocks) (hb : b ∈ blocks) (kind : b.kind = .figure) :
    ∃ figure, n.Agrees b figure := by
  obtain ⟨f, hf, multi, -, name, images⟩ := Block.exists_figure collected hb kind
  have h := registers_of_ofOutline numbering
  have c := (steps_of_ofOutline numbering).consistent
  obtain ⟨id, hid⟩ := ((Outline.reads_of_ofText outline).called f hf).exists_id?_of_needsName (.inl multi)
  obtain ⟨e, ps, -, parses⟩ := Outline.exists_figure_parses outline hf
  obtain ⟨images, few⟩ := Block.imagesOfFigure_ok images (parses.panels_ne_nil multi)
  obtain ⟨figure, found, own⟩ := h.sound.exists_get? (h.entries ▸ Outline.own_figure_mem_entries hf hid)
  obtain ⟨-, rfl, isFigure, -⟩ := Label.entry_eq_own_iff.1 own
  refine ⟨figure, name ▸ hid, found, isFigure, ?_, images ▸ Block.pairwise_letter f.panels, ?_⟩
  · intro image mem
    obtain ⟨i, p, hi, letter, -⟩ := Block.exists_panel_of_mem (images ▸ mem)
    obtain ⟨x, hx⟩ := h.exists_letter hf hid hi
    exact ⟨x, letter.trans hx⟩
  · intro image mem id label
    obtain ⟨i, p, hi, letter, own⟩ := Block.exists_panel_of_mem (images ▸ mem)
    rw [letter]
    exact h.exists_label_of_panel c hf hid found hi (own ▸ label)

theorem agrees_of_ofOutline_mixed : ∃ o n blocks, Outline.ofText Figure.mixed = .ok o ∧ ofOutline o = .ok n ∧
    Block.ofOutline false o = .ok blocks ∧ ∃ b ∈ blocks, b.kind = .figure ∧
      b.images.map Block.Image.label = [none, some ['a'], some ['a']] ∧ ∃ figure, n.Agrees b figure := by
  have good : ∃ o, Outline.ofText Figure.mixed = .ok o ∧ ∃ n, ofOutline o = .ok n ∧
      ∃ blocks, Block.ofOutline false o = .ok blocks ∧ ∃ b ∈ blocks, b.kind = .figure ∧
        b.images.map Block.Image.label = [none, some ['a'], some ['a']] := by
    unfold Outline.ofText Figure.ofEnvironment Panel.written
    simp only [mergeSort_key_eq]
    decide +kernel
  obtain ⟨o, ho, n, hn, blocks, hblocks, b, hb, kind, labels⟩ := good
  exact ⟨o, n, blocks, ho, hn, hblocks, b, hb, kind, labels, agrees_of_ofOutline ho hn hblocks hb kind⟩

end Numbering

end FloatFlattening
