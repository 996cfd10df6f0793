import FloatFlattening.Proofs.Block
import FloatFlattening.Proofs.FloatMarkup
import FloatFlattening.Proofs.Flattening.Exchange
import FloatFlattening.Settings
/-!
The labels of a flattened document. The float that stands for a block has the caption of the block as
it was written, and sets the name of the block besides: a name that the caption sets is set twice.
-/

namespace FloatFlattening

open Numbering Text

variable {t : Text} {o : Outline} {n : Numbering} {s s' : Span} {id : Text} {b : Block}
  {e : Environment}

namespace Outline

/-- A label that is set in a part of a document. -/
def SetIn (o : Outline) (s : Span) (id : Text) : Prop :=
  ∃ m ∈ o.marks, s.Holds m.span.start ∧ m.id = id

/-- A label that is set in a part of a document, or made up for the figure that the part is. -/
def Bears (o : Outline) (s : Span) (id : Text) : Prop :=
  o.SetIn s id ∨ ∃ f ∈ o.figures, f.made? = some id ∧ f.span = s

theorem SetIn.mono (h : o.SetIn s id) (start : s'.start ≤ s.start) (stop : s.stop ≤ s'.stop) :
    o.SetIn s' id := by
  obtain ⟨m, hm, holds, eq⟩ := h
  exact ⟨m, hm, ⟨start.trans holds.1, holds.2.trans_le stop⟩, eq⟩

namespace Reads

variable (h : Reads t o) (nodup : (o.entries.map Label.Entry.id).Nodup)

include h nodup

theorem not_bears (hb : o.Bears s id) (apart : s.stop ≤ s'.start) : ¬ o.Bears s' id := by
  rintro (⟨m', hm', holds', eq'⟩ | ⟨f', hf', made', rfl⟩)
  · rcases hb with ⟨m, hm, holds, eq⟩ | ⟨f, hf, made, rfl⟩
    · obtain rfl := h.eq_of_id nodup hm hm' (eq.trans eq'.symm)
      have := holds.2
      have := holds'.1
      omega
    · exact h.made_not_mem id (List.mem_filterMap.2 ⟨f, hf, made⟩) (eq' ▸ List.mem_map_of_mem hm')
  · rcases hb with ⟨m, hm, -, eq⟩ | ⟨f, hf, made, rfl⟩
    · exact h.made_not_mem id (List.mem_filterMap.2 ⟨f', hf', made'⟩) (eq ▸ List.mem_map_of_mem hm)
    · have named {f : Figure} (made : f.made? = some id) : f.name.id? = some id := by
        cases hn : f.name <;> simp_all [Figure.made?, FloatName.id?]
      cases eq_site nodup (figure_mem_sites hf) (figure_mem_sites hf') (own_figure_mem o (named made))
        (own_figure_mem o (named made'))
      obtain ⟨e, lies, figure⟩ := h.exists_figure hf
      have := lies.start_lt
      have := lies.lt_stop
      have := lies.body_le
      rw [figure.span] at apart
      omega

/-- What a part of a plain document sets, it sets once. -/
theorem ids_slice (hp : Plain Mark.commandNames t) (hs : Plain Mark.commandNames (t.slice s))
    (free : escapes (t.take s.start) = false) :
    (Mark.ids (t.slice s)).Nodup ∧ ∀ id ∈ Mark.ids (t.slice s), o.SetIn s id := by
  have mem {m : Mark} (hm : m ∈ (Mark.inSpan t s).found) : m ∈ o.marks :=
    h.marks ▸ Mark.mem_all_of_mem_inSpan hp free hm
  rw [← Mark.map_id_inSpan hs]
  constructor
  · exact Mark.nodup_inSpan.map_on fun m hm m' hm' eq => h.eq_of_id nodup (mem hm) (mem hm') eq
  · intro id hid
    obtain ⟨m, hm, rfl⟩ := List.mem_map.1 hid
    exact ⟨m, mem hm, Mark.holds_of_mem_inSpan hm, rfl⟩

end Reads

end Outline

/-- The caption of a block sets the name of the block. -/
def Block.CaptionSetsName (b : Block) : Prop :=
  ∃ id ∈ b.name.id?, ∃ caption ∈ b.caption, id ∈ Mark.ids caption

instance : DecidablePred Block.CaptionSetsName := fun b =>
  inferInstanceAs (Decidable (∃ id ∈ b.name.id?, ∃ caption ∈ b.caption, id ∈ Mark.ids caption))

/-- The labels of the float that stands for a block. -/
def Block.ids (b : Block) : List Text := Mark.ids (b.caption.getD []) ++ b.name.id?.toList

namespace Block.Reads

variable (h : b.Reads t o e)

include h

theorem start_lt_stop : b.span.start < b.span.stop := by
  have := h.lies.start_lt
  have := h.lies.lt_stop
  have := h.lies.body_le
  rw [h.span]
  omega

theorem head?_drop_start : (t.drop b.span.start).head? = some '\\' := by
  obtain ⟨u, hu⟩ := h.lies.drop_start
  rw [h.span, hu]
  rfl

theorem escapes_start : escapes (t.take b.span.start) = false := by
  rw [h.span, h.lies.escapes_start]

theorem escapes_stop : escapes (t.take b.span.stop) = false := by
  obtain ⟨f, hf, span⟩ := h.lies.ends
  simpa [h.span, span] using Command.escapes_take_stop hf

theorem of_caption (hp : Plain Mark.commandNames t) {x : Text} (hx : x ∈ b.caption) :
    Plain Mark.commandNames x ∧ escapes x = false ∧ ∃ s, x = t.slice s ∧
      escapes (t.take s.start) = false ∧ b.span.start ≤ s.start ∧ s.stop ≤ b.span.stop := by
  obtain ⟨c, hc, rfl⟩ := h.caption x hx
  obtain ⟨i, n, eq, start, stop, opens, group⟩ := Command.exists_argument hc
  obtain ⟨plain, free⟩ := Command.plain_group hp group
  have := Command.bounds_of_mem_inSpan hc
  have := h.lies.start_lt
  have := h.lies.lt_stop
  rw [eq, h.span]
  exact ⟨plain, free, _, rfl, escapes_take_succ opens (by decide), by dsimp only; omega,
    by dsimp only; omega⟩

theorem ids_bears (reads : o.Reads t) (nodup : (o.entries.map Label.Entry.id).Nodup)
    (hp : Plain Mark.commandNames t) :
    (Mark.ids (b.caption.getD [])).Nodup ∧ ∀ id ∈ b.ids, o.Bears b.span id := by
  have captions : (Mark.ids (b.caption.getD [])).Nodup ∧
      ∀ id ∈ Mark.ids (b.caption.getD []), o.SetIn b.span id := by
    cases hc : b.caption with
    | none => simp
    | some x =>
      obtain ⟨plain, -, s, rfl, free, start, stop⟩ := h.of_caption hp hc
      obtain ⟨once, set⟩ := reads.ids_slice nodup hp plain free
      exact ⟨once, fun id hid => (set id hid).mono start stop⟩
  refine ⟨captions.1, fun id hid => ?_⟩
  rcases List.mem_append.1 hid with hid | hid
  · exact .inl (captions.2 id hid)
  · rcases h.name id (Option.mem_toList.1 hid) with ⟨m, hm, rfl⟩ | made
    · have mem : m ∈ o.marks :=
        reads.marks ▸ Mark.mem_all_of_mem_inSpan hp (h.lies.seam_start []).free hm
      exact .inl ⟨m, mem, h.span ▸ h.lies.holds_span (Mark.holds_of_mem_inSpan hm), rfl⟩
    · exact .inr made

theorem name_fits (reads : o.Reads t) (hp : Plain Mark.commandNames t) :
    ∀ id ∈ b.name.id?, (∀ c ∈ id, isInner c) ∧ id.trim = id := by
  intro id hid
  rcases h.name id hid with ⟨m, hm, rfl⟩ | ⟨f, hf, made, -⟩
  · obtain ⟨c, hc, rfl⟩ := Mark.exists_command hm
    have inner := Command.inner_argument hp Mark.label_subset hc
    exact ⟨fun x hx => inner x ((trim_isInfix _).subset hx), trim_trim _⟩
  · obtain ⟨k, rfl⟩ := (reads.called f hf).exists_synthetic made
    exact ⟨Outline.inner_syntheticLabel k, Outline.trim_syntheticLabel k⟩

/-- The image of a block and its name are plain, and neither names a slot of a template. -/
theorem fills {directory : Text} (inner : ∀ c ∈ directory, isInner c)
    (name : ∀ id ∈ b.name.id?, (∀ c ∈ id, isInner c) ∧ id ≠ "caption") :
    FloatMarkup.Fills (b.imagePath directory) b.name.id? := by
  have slash : '/' ∈ b.imagePath directory := by simp [imagePath]
  refine ⟨?_, ?_, ?_, name⟩
  · simp only [imagePath, List.forall_mem_append]
    exact ⟨⟨⟨inner, by decide⟩, h.stem⟩, by decide⟩
  · intro eq
    exact absurd (eq ▸ slash) (by decide)
  · intro eq
    exact absurd (eq ▸ slash) (by decide)

theorem closed_markup {settings : Settings} (reads : o.Reads t) (hp : Plain Mark.commandNames t)
    (figures : settings.figureTemplate = none) (tables : settings.tableTemplate = none)
    (directory : ∀ c ∈ settings.figureDirectory, isInner c) (ne : ∀ id ∈ b.name.id?, id ≠ "caption") :
    Closed (settings.markup b) b.ids := by
  have fills := h.fills directory fun id hid => ⟨(h.name_fits reads hp id hid).1, ne id hid⟩
  have caption : ∀ x ∈ b.caption, Plain Mark.commandNames x ∧ escapes x = false := fun x hx =>
    ⟨(h.of_caption hp hx).1, (h.of_caption hp hx).2.1⟩
  have trimmed : ∀ id ∈ b.name.id?, id.trim = id := fun id hid => (h.name_fits reads hp id hid).2
  rw [Settings.markup]
  cases b.kind with
  | figure =>
    rw [Settings.template, figures]
    exact FloatMarkup.closed_defaultFigure fills trimmed caption
  | table =>
    rw [Settings.template, tables]
    exact FloatMarkup.closed_defaultTable fills trimmed caption

end Block.Reads

namespace Flattened

variable {flattened : List Text} {last : Nat} {chosen : List (Block × Text)} {markup : Text}
  {line : Nat} {l : List Text}

/-- A gap without directives sets what it sets in the document. -/
theorem sets_gap (hn : n.Sound) (names : ∀ name ∈ flattened, ∀ c ∈ name, isInner c)
    (hp : Plain Mark.commandNames t) (fits : (Stretch.gap s).Fits t)
    (free : escapes (t.take s.start) = false) (hs : Plain Mark.commandNames (t.slice s))
    (directives : ((Stretch.gap s).passage n flattened t).directives = 0) :
    Sets ((Stretch.gap s).passage n flattened t).text (Mark.ids (t.slice s)) ∧
      Alike ((Stretch.gap s).passage n flattened t).text (t.slice s) := by
  rw [text_gap directives]
  exact sets_exchange hn names hp fits.1 fits.2 free ⟨hs, rfl⟩ (Reference.ofCommand t) fun _ => rfl

theorem closed_float (hn : n.Sound) (names : ∀ name ∈ flattened, ∀ c ∈ name, isInner c)
    (h : Closed markup l) : Closed ((Stretch.float markup line).passage n flattened t).text l := by
  have whole := Text.slice_self markup
  obtain ⟨sets, alike⟩ := sets_exchange (s := ⟨0, markup.length⟩) hn names h.sets.plain (Nat.zero_le _)
    le_rfl rfl (whole.symm ▸ h.sets) (fun c => { Reference.ofCommand markup c with line }) fun _ => rfl
  rw [whole] at alike
  rw [text_float]
  exact alike.closed h sets

/-- The labels of a document from `last` on, with the given blocks still to come. -/
def labels (t : Text) : (last : Nat) → List (Block × Text) → List Text
  | last, [] => Mark.ids (t.slice ⟨last, t.length⟩)
  | last, (b, _) :: rest =>
    Mark.ids (t.slice ⟨last, b.span.start⟩) ++ (b.ids ++ labels t b.span.stop rest)

/-- A block with the float that is to stand for it. -/
structure Drawn (t : Text) (o : Outline) (c : Block × Text) : Prop where
  reads : ∃ e, c.1.Reads t o e
  closed : Closed c.2 c.1.ids

theorem sets_stretches (hn : n.Sound) (names : ∀ name ∈ flattened, ∀ c ∈ name, isInner c)
    (hp : Plain Mark.commandNames t) (fits : ∀ s ∈ stretches t last chosen, s.Fits t)
    (directives : ∀ s ∈ stretches t last chosen, (s.passage n flattened t).directives = 0)
    (free : escapes (t.take last) = false) (drawn : ∀ c ∈ chosen, Drawn t o c) :
    Sets ((stretches t last chosen).flatMap fun s => (s.passage n flattened t).text)
      (labels t last chosen) := by
  induction chosen generalizing last with
  | nil =>
    simp only [stretches, List.forall_mem_singleton] at fits directives
    simpa [stretches, labels] using
      (sets_gap hn names hp fits free (hp.slice (by simp)) directives).1
  | cons c chosen ih =>
    obtain ⟨b, markup⟩ := c
    simp only [stretches, List.forall_mem_cons] at fits directives drawn
    obtain ⟨⟨⟨e, reads⟩, closed⟩, drawn⟩ := drawn
    have slash := reads.head?_drop_start
    have plain : Plain Mark.commandNames (t.slice ⟨last, b.span.start⟩) :=
      hp.slice fun c hc => Option.some.inj (hc.symm.trans slash)
    obtain ⟨before, alike⟩ := sets_gap hn names hp fits.1 free plain directives.1
    have float : Closed ((Stretch.float markup b.line).passage n flattened t).text b.ids :=
      closed_float hn names closed
    have after := ih fits.2.2 directives.2.2 reads.escapes_stop drawn
    have free' : escapes ((Stretch.gap ⟨last, b.span.start⟩).passage n flattened t).text = false := by
      obtain ⟨k, hk⟩ := Nat.exists_eq_add_of_le fits.1.1
      simp only at hk
      rw [alike.escapes, hk, slice_eq_take, escapes_drop_take free, ← hk, reads.escapes_start]
    have cut := Cut.of_head? (t := ((Stretch.float markup b.line).passage n flattened t).text ++
      (stretches t b.span.stop chosen).flatMap fun s => (s.passage n flattened t).text) free' (by
        rw [List.head?_append_of_ne_nil _ float.ne_nil, float.begins])
    simpa [stretches, labels] using before.append (float.sets.append after (float.ends.cut _)) cut

theorem nodup_labels (reads : o.Reads t) (nodup : (o.entries.map Label.Entry.id).Nodup)
    (hp : Plain Mark.commandNames t) (fits : ∀ s ∈ stretches t last chosen, s.Fits t)
    (free : escapes (t.take last) = false) (drawn : ∀ c ∈ chosen, Drawn t o c) :
    ((labels t last chosen).Nodup ↔
        ∀ c ∈ chosen, ∀ id ∈ c.1.name.id?, id ∉ Mark.ids (c.1.caption.getD [])) ∧
      ∀ id ∈ labels t last chosen, ∃ s : Span, last ≤ s.start ∧ o.Bears s id := by
  induction chosen generalizing last with
  | nil =>
    obtain ⟨once, set⟩ := reads.ids_slice (s := ⟨last, t.length⟩) nodup hp (hp.slice (by simp)) free
    simp only [labels]
    exact ⟨by simpa using once, fun id hid => ⟨_, le_rfl, .inl (set id hid)⟩⟩
  | cons c chosen ih =>
    obtain ⟨b, markup⟩ := c
    simp only [stretches, List.forall_mem_cons] at fits drawn
    obtain ⟨⟨⟨e, block⟩, closed⟩, drawn⟩ := drawn
    obtain ⟨iff, later⟩ := ih fits.2.2 block.escapes_stop drawn
    have slash := block.head?_drop_start
    have plain : Plain Mark.commandNames (t.slice ⟨last, b.span.start⟩) :=
      hp.slice fun c hc => Option.some.inj (hc.symm.trans slash)
    obtain ⟨once, before⟩ := reads.ids_slice nodup hp plain free
    obtain ⟨caption, bears⟩ := block.ids_bears reads nodup hp
    have lt := block.start_lt_stop
    have le : last ≤ b.span.start := fits.1.1
    have inside : b.ids.Nodup ↔ ∀ id ∈ b.name.id?, id ∉ Mark.ids (b.caption.getD []) := by
      rw [Block.ids]
      cases b.name.id? with
      | none => simpa using caption
      | some id => simp [← List.concat_eq_append, List.nodup_concat, caption]
    have apart {s s' : Span} {x y : Text} (hx : o.Bears s x) (hy : o.Bears s' y)
        (apart : s.stop ≤ s'.start) : x ≠ y := by
      rintro rfl
      exact reads.not_bears nodup hx apart hy
    have after : ∀ x ∈ b.ids, ∀ y ∈ labels t b.span.stop chosen, x ≠ y := by
      intro x hx y hy
      obtain ⟨s, le, hy⟩ := later y hy
      exact apart (bears x hx) hy le
    have first : ∀ x ∈ Mark.ids (t.slice ⟨last, b.span.start⟩),
        ∀ y ∈ b.ids ++ labels t b.span.stop chosen, x ≠ y := by
      intro x hx y hy
      rcases List.mem_append.1 hy with hy | hy
      · exact apart (.inl (before x hx)) (bears y hy) le_rfl
      · obtain ⟨s, le, hy⟩ := later y hy
        exact apart (.inl (before x hx)) hy (lt.le.trans le)
    rw [labels]
    refine ⟨?_, fun id hid => ?_⟩
    · rw [List.nodup_append, List.nodup_append, inside, iff, List.forall_mem_cons]
      exact ⟨fun h => ⟨h.2.1.1, h.2.1.2.1⟩, fun h => ⟨once, ⟨h.1, h.2, after⟩, first⟩⟩
    · rcases List.mem_append.1 hid with hid | hid
      · exact ⟨_, le_rfl, .inl (before id hid)⟩
      · rcases List.mem_append.1 hid with hid | hid
        · exact ⟨_, le, bears id hid⟩
        · obtain ⟨s, le', hs⟩ := later id hid
          exact ⟨s, (le.trans lt.le).trans le', hs⟩

/-- An image for every block, with the float that shows it. -/
def drawn (settings : Settings) (blocks : List Block) : List Replacement :=
  blocks.zipIdx.map fun (b, i) => ⟨i, settings.markup b⟩

theorem mem_chosen_drawn {settings : Settings} {blocks : List Block} {c : Block × Text} :
    c ∈ Flattened.chosen blocks (drawn settings blocks) ↔ c.1 ∈ blocks ∧ c.2 = settings.markup c.1 := by
  obtain ⟨b, markup⟩ := c
  simp only [Flattened.chosen, drawn, List.mem_mergeSort, List.mem_filterMap, List.mem_map]
  constructor
  · rintro ⟨_, ⟨⟨b', i⟩, mem, rfl⟩, hr⟩
    have hi := List.mk_mem_zipIdx_iff_getElem?.1 mem
    obtain ⟨rfl, rfl⟩ : b' = b ∧ settings.markup b' = markup := by simpa [hi] using hr
    exact ⟨List.mem_of_getElem? hi, rfl⟩
  · rintro ⟨mem, rfl⟩
    obtain ⟨i, hi⟩ := List.getElem?_of_mem mem
    exact ⟨_, ⟨(b, i), List.mk_mem_zipIdx_iff_getElem?.2 hi, rfl⟩, by simp [hi]⟩

/-- A flattened document sets a label twice just if the caption of a block sets the name of the
block. -/
theorem nodup_ids_iff {settings : Settings} {blocks : List Block} {f : Flattened}
    (outline : Outline.ofText t = .ok o) (numbering : ofOutline o = .ok n)
    (collected : settings.blocks o = .ok blocks)
    (success : ofText t n blocks (drawn settings blocks) = .ok f)
    (figures : settings.figureTemplate = none) (tables : settings.tableTemplate = none)
    (directory : ∀ c ∈ settings.figureDirectory, isInner c)
    (plain : Plain Mark.commandNames t) (directives : f.directivesRemoved = 0)
    (slots : ∀ b ∈ blocks, ∀ id ∈ b.name.id?, id ≠ "caption") :
    (Mark.ids f.text).Nodup ↔ ∀ b ∈ blocks, ¬ b.CaptionSetsName := by
  have reads := Outline.reads_of_ofText outline
  have registers := registers_of_ofOutline numbering
  have block {b : Block} (hb : b ∈ blocks) : ∃ e, b.Reads t o e :=
    Block.exists_reads reads collected hb
  have drawn : ∀ c ∈ Flattened.chosen blocks (drawn settings blocks), Drawn t o c := by
    intro c hc
    obtain ⟨hb, markup⟩ := mem_chosen_drawn.1 hc
    obtain ⟨e, he⟩ := block hb
    exact ⟨⟨e, he⟩, markup ▸ he.closed_markup reads plain figures tables directory (slots _ hb)⟩
  have inner : ∀ name ∈ names blocks (Flattened.drawn settings blocks), ∀ c ∈ name, isInner c := by
    intro name hname
    obtain ⟨c, hc, hn⟩ := List.mem_filterMap.1 hname
    obtain ⟨e, he⟩ := block (mem_chosen_drawn.1 hc).1
    exact (he.name_fits reads plain name hn).1
  obtain ⟨fits, -⟩ := eq_join_of_ofText success
  rw [directives_of_ofText success, List.sum_eq_zero_iff_forall_eq_nat, List.forall_mem_map] at directives
  have sets := sets_stretches registers.sound inner plain fits directives rfl drawn
  rw [text_of_ofText success, sets.ids, (nodup_labels reads registers.nodup plain fits rfl drawn).1]
  constructor
  · rintro h b hb ⟨id, hid, caption, hc, mem⟩
    have not := h (b, settings.markup b) (mem_chosen_drawn.2 ⟨hb, rfl⟩) id hid
    exact not (by simpa [Option.mem_def.1 hc] using mem)
  · intro h c hc id hid mem
    cases caption : c.1.caption with
    | none => simp [caption] at mem
    | some x => exact h c.1 (mem_chosen_drawn.1 hc).1 ⟨id, hid, x, caption, by simpa [caption] using mem⟩

def sampleSettings : Settings := { input := "a.tex", output := "a.docx" }

/-- A figure of two images, with its label beside the caption. -/
def beside : Text :=
  "\\begin\x7bfigure\x7d\\includegraphics\x7ba\x7d\\includegraphics\x7bb\x7d\\caption\x7bBoth\x7d" ++
    "\\label\x7bfig:both\x7d\\end\x7bfigure\x7d"

theorem nodup_ids_beside : ∃ o, Outline.ofText beside = .ok o ∧ ∃ n, ofOutline o = .ok n ∧
    ∃ blocks, sampleSettings.blocks o = .ok blocks ∧
      ∃ f, ofText beside n blocks (drawn sampleSettings blocks) = .ok f ∧
        Plain Mark.commandNames beside ∧ f.directivesRemoved = 0 ∧
          (∀ b ∈ blocks, ∀ id ∈ b.name.id?, id ≠ "caption") ∧ (Mark.ids f.text).Nodup := by
  have good : ∃ o, Outline.ofText beside = .ok o ∧ ∃ n, ofOutline o = .ok n ∧
      ∃ blocks, sampleSettings.blocks o = .ok blocks ∧
        ∃ f, ofText beside n blocks (drawn sampleSettings blocks) = .ok f ∧
          Plain Mark.commandNames beside ∧ f.directivesRemoved = 0 ∧
            (∀ b ∈ blocks, ∀ id ∈ b.name.id?, id ≠ "caption") ∧
              ∀ b ∈ blocks, ¬ b.CaptionSetsName := by
    set_option synthInstance.maxSize 256 in decide +kernel
  obtain ⟨o, ho, n, hn, blocks, hb, f, hf, plain, directives, slots, apart⟩ := good
  exact ⟨o, ho, n, hn, blocks, hb, f, hf, plain, directives, slots,
    (nodup_ids_iff ho hn hb hf rfl rfl (by decide) plain directives slots).2 apart⟩

/-- The same figure with its label in the caption. -/
def within : Text :=
  "\\begin\x7bfigure\x7d\\includegraphics\x7ba\x7d\\includegraphics\x7bb\x7d" ++
    "\\caption\x7bBoth\\label\x7bfig:both\x7d\x7d\\end\x7bfigure\x7d"

theorem exists_twice : ∃ o, Outline.ofText within = .ok o ∧ ∃ n, ofOutline o = .ok n ∧
    ∃ blocks, sampleSettings.blocks o = .ok blocks ∧
      ∃ f, ofText within n blocks (drawn sampleSettings blocks) = .ok f ∧
        ¬ (Mark.ids f.text).Nodup := by
  decide +kernel

end Flattened

end FloatFlattening
