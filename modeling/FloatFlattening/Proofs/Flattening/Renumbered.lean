import FloatFlattening.Proofs.Flattening.Redrawn
import FloatFlattening.Proofs.Flattening.Text
import FloatFlattening.Settings
/-!
The numbers of a flattened document. What is left of a document in good order keeps the numbers it had,
where each part between flattened figures can be searched by itself.
-/

namespace FloatFlattening

open Numbering Text

variable {t : Text} {o o' : Outline} {n : Numbering} {settings : Settings} {blocks : List Block} {f : Flattened}
  {chosen : List (Block × Text)} {b : Block}

namespace Flattened

namespace Stretch

/-- The commands of a stretch. -/
def commands (t : Text) (names : List Text) : Stretch → Scan Command
  | gap s => Command.inSpan t s names
  | float markup _ => Command.all markup names

/-- No label, `\begin` or `\end` goes on from a gap into the figure after it. -/
def Severed (t : Text) : Stretch → Prop
  | gap s => ∀ names ∈ searches, (Command.inSpan t s names).stopped = none
  | float _ _ => True

instance decidableSevered (t : Text) : (s : Stretch) → Decidable (s.Severed t)
  | gap s => inferInstanceAs (Decidable (∀ names ∈ searches, (Command.inSpan t s names).stopped = none))
  | float _ _ => .isTrue trivial

theorem exists_reference {s : Stretch} {c : Command} (h : c ∈ (s.commands t Reference.commandNames).found) :
    ∃ r ∈ (s.references t).found, r.target = c.argument.trim := by
  cases s with
  | gap s => exact ⟨_, List.mem_map_of_mem h, rfl⟩
  | float markup line => exact ⟨_, List.mem_map_of_mem (List.mem_map_of_mem h), rfl⟩

end Stretch

theorem float_mem_stretches {c : Block × Text} (h : c ∈ chosen) (last : Nat) :
    .float c.2 c.1.line ∈ stretches t last chosen := by
  induction chosen generalizing last with
  | nil => cases h
  | cons d chosen ih =>
    rw [stretches]
    rcases List.mem_cons.1 h with rfl | h
    · simp
    · exact List.mem_cons_of_mem _ (List.mem_cons_of_mem _ (ih h _))

/-- A document in good order, with the blocks to be replaced. -/
structure Orderly (t : Text) (o : Outline) (chosen : List (Block × Text)) : Prop where
  floats : ∀ f ∈ o.multiFigures, ∀ s ∈ o.tables.map Table.span ++ o.equations, s.Apart f.span
  marks : o.MarksApart
  references : ∀ s ∈ stretches t 0 chosen, ∀ c ∈ (s.commands t Reference.commandNames).found, c.optional = []
  ids : ∀ m ∈ o.marks, (∀ c ∈ m.id, isInner c) ∧ ¬ "fig:multifig" <+: m.id ∧ m.id ≠ "caption"
  captions : ∀ c ∈ chosen, FloatMarkup.Silent c.1.caption

instance decidableSilent (caption : Option Text) : Decidable (FloatMarkup.Silent caption) :=
  inferInstanceAs (Decidable (∀ x ∈ caption, ∀ w ∈ FloatMarkup.words, occursIn ('\\' :: w) x = false))

instance decidableOrderly (t : Text) (o : Outline) (chosen : List (Block × Text)) : Decidable (Orderly t o chosen) :=
  decidable_of_iff
    ((∀ f ∈ o.multiFigures, ∀ s ∈ o.tables.map Table.span ++ o.equations, s.Apart f.span) ∧ o.MarksApart ∧
      (∀ s ∈ stretches t 0 chosen, ∀ c ∈ (s.commands t Reference.commandNames).found, c.optional = []) ∧
      (∀ m ∈ o.marks, (∀ c ∈ m.id, isInner c) ∧ ¬ "fig:multifig" <+: m.id ∧ m.id ≠ "caption") ∧
      ∀ c ∈ chosen, FloatMarkup.Silent c.1.caption)
    ⟨fun ⟨floats, marks, references, ids, captions⟩ => ⟨floats, marks, references, ids, captions⟩,
      fun ⟨floats, marks, references, ids, captions⟩ => ⟨floats, marks, references, ids, captions⟩⟩

/-- All labels that are registered are plain. -/
theorem inner_of_mem_ids (reads : o.Reads t) (numbering : ofOutline o = .ok n) (marks : o.MarksApart)
    (ids : ∀ m ∈ o.marks, ∀ c ∈ m.id, isInner c) {id : Text} (h : id ∈ n.ids) : ∀ c ∈ id, isInner c := by
  rw [← map_id_entries, (registers_of_ofOutline numbering).entries, reads.mem_ids_entries] at h
  rcases h with mem | ⟨f, hf, made | ⟨m, hm, rfl⟩⟩
  · obtain ⟨m, hm, rfl⟩ := List.mem_map.1 mem
    exact ids m hm
  · obtain ⟨k, rfl⟩ := (reads.called f hf).exists_synthetic made
    exact Outline.inner_syntheticLabel k
  · exact ids m (reads.mem_marks_of_visited marks hf hm)

theorem inner_of_trim {u : Text} (h : ∀ c ∈ u.trim, isInner c) : ∀ c ∈ u, isInner c := by
  intro c hc
  cases blank : isBlank c with
  | false => exact h c ((mem_trim_iff blank).2 hc)
  | true => exact isInner_of_isBlank blank

/-- The figure that a block is. -/
theorem exists_figure (collected : Block.ofOutline false o = .ok blocks) (hb : b ∈ blocks) :
    ∃ f ∈ o.figures, f.IsMulti ∧ f.name = b.name := by
  have mem := (Block.perm_places collected).mem_iff.1 (List.mem_map_of_mem hb)
  simp only [Block.places, Outline.multiFigures, Bool.false_eq_true, if_false, List.append_nil, List.mem_map,
    List.mem_filter, decide_eq_true_eq] at mem
  obtain ⟨f, ⟨hf, multi⟩, eq⟩ := mem
  exact ⟨f, hf, multi, (Prod.mk.inj eq).2⟩

/-- A block has a name, which is plain and names no slot of a template. -/
theorem exists_name (reads : o.Reads t) (orderly : Orderly t o chosen)
    (collected : Block.ofOutline false o = .ok blocks) (hb : b ∈ blocks) :
    ∃ id, b.name.id? = some id ∧ (∀ c ∈ id, isInner c) ∧ id ≠ "caption" ∧ id.trim = id := by
  obtain ⟨f, hf, multi, name⟩ := exists_figure collected hb
  obtain ⟨id, hid⟩ := reads.exists_id?_of_isMulti hf multi
  refine ⟨id, name ▸ hid, ?_⟩
  rcases reads.mem_marks_or_made orderly.marks hf hid with mem | made
  · obtain ⟨m, hm, rfl⟩ := List.mem_map.1 mem
    refine ⟨(orderly.ids m hm).1, (orderly.ids m hm).2.2, ?_⟩
    rw [reads.marks] at hm
    obtain ⟨c, -, rfl⟩ := List.mem_map.1 hm
    exact trim_trim _
  · obtain ⟨k, rfl⟩ := (reads.called f hf).exists_synthetic made
    refine ⟨Outline.inner_syntheticLabel k, fun eq => ?_, Outline.trim_syntheticLabel k⟩
    cases (List.cons.inj eq).1

theorem names_inner (reads : o.Reads t) (orderly : Orderly t o chosen)
    (collected : Block.ofOutline false o = .ok blocks) {images : List Replacement} :
    ∀ name ∈ names blocks images, ∀ c ∈ name, isInner c := by
  intro name hname
  obtain ⟨c, hc, hn⟩ := List.mem_filterMap.1 hname
  obtain ⟨id, hid, inner, -⟩ := exists_name reads orderly collected (mem_of_mem_chosen hc)
  rw [hid] at hn
  exact Option.some.inj hn ▸ inner

section

variable (outline : Outline.ofText t = .ok o) (numbering : ofOutline o = .ok n)
  (collected : Block.ofOutline false o = .ok blocks)
  (success : ofText t n blocks (drawn settings blocks) = .ok f)
  (orderly : Orderly t o (Flattened.chosen blocks (drawn settings blocks)))

include outline numbering success orderly

/-- The references that are visited are bare. -/
theorem bare {s : Stretch} (hs : s ∈ stretches t 0 (Flattened.chosen blocks (drawn settings blocks))) :
    ∀ c ∈ (s.commands t Reference.commandNames).found, c.optional = [] ∧ ∀ x ∈ c.argument, isInner x := by
  have reads := Outline.reads_of_ofText outline
  intro c hc
  refine ⟨orderly.references s hs c hc, inner_of_trim ?_⟩
  obtain ⟨r, hr, target⟩ := s.exists_reference hc
  have known := known_of_ofText success r (List.mem_flatMap.2 ⟨s, hs, hr⟩)
  rw [← target]
  exact inner_of_mem_ids reads numbering orderly.marks (fun m hm => (orderly.ids m hm).1) known

theorem even (directives : f.directivesRemoved = 0)
    (severed : ∀ s ∈ stretches t 0 (Flattened.chosen blocks (drawn settings blocks)), s.Severed t) (s : Span)
    (hs : .gap s ∈ stretches t 0 (Flattened.chosen blocks (drawn settings blocks))) :
    Even n (names blocks (drawn settings blocks)) t s := by
  rw [directives_of_ofText success, List.sum_eq_zero_iff_forall_eq_nat, List.forall_mem_map] at directives
  exact ⟨(eq_join_of_ofText success).1 _ hs, directives _ hs, bare outline numbering success orderly hs, severed _ hs⟩

include collected

theorem shown (figures : settings.figureTemplate = none) (directory : ∀ c ∈ settings.figureDirectory, isInner c) :
    ∀ c ∈ Flattened.chosen blocks (drawn settings blocks), Shown t o c := by
  have reads := Outline.reads_of_ofText outline
  intro c hc
  obtain ⟨hb, markup⟩ := mem_chosen_drawn.1 hc
  obtain ⟨e, he⟩ := Block.exists_reads reads collected hb
  obtain ⟨id, hid, inner, notSlot, trim⟩ := exists_name reads orderly collected hb
  have fills : FloatMarkup.Fills (c.1.imagePath settings.figureDirectory) c.1.name.id? :=
    he.fills directory fun id' hid' => by
      obtain rfl := Option.some.inj (hid.symm.trans hid')
      exact ⟨inner, notSlot⟩
  have render : c.2 = FloatMarkup.render FloatMarkup.defaultFigure (c.1.imagePath settings.figureDirectory)
      c.1.caption (some id) := by
    rw [markup, Settings.markup, Block.kind_of_ofOutline collected hb, Settings.template, figures, hid]
    rfl
  obtain ⟨b, y, m, lone⟩ := FloatMarkup.exists_lone_defaultFigure (hid ▸ fills) trim (orderly.captions c hc)
  rw [← render] at lone
  refine ⟨⟨e, he⟩, ⟨id, hid, fun slash => ?_, b, y, m, lone⟩, ?_⟩
  · cases inner _ slash
  · have plain := bare outline numbering success orderly (float_mem_stretches hc 0)
    rwa [Stretch.commands, Command.all_eq_inSpan] at plain

/-- The flattened document has lone figures in the places of the blocks. -/
theorem exists_redraws (outline' : Outline.ofText f.text = .ok o') (figures : settings.figureTemplate = none)
    (directory : ∀ c ∈ settings.figureDirectory, isInner c) (directives : f.directivesRemoved = 0)
    (severed : ∀ s ∈ stretches t 0 (Flattened.chosen blocks (drawn settings blocks)), s.Severed t) :
    ∃ places, Redraws t o f.text o' places ((Flattened.chosen blocks (drawn settings blocks)).map Prod.fst) := by
  have reads := Outline.reads_of_ofText outline
  obtain ⟨ps, solid, old, new, laid⟩ := exists_pieces_laid (registers_of_ofOutline numbering).sound
    (names_inner reads orderly collected) (show escapes (t.take 0) = false from rfl)
    (shown outline numbering collected success orderly figures directory)
    (even outline numbering success orderly directives severed)
  have text : f.text = Piece.news ps := (text_of_ofText success).trans new.symm
  refine ⟨Piece.At ps 0 0, outline, outline', solid.aligned 0 0, ?_, fun p => ?_, orderly.marks, orderly.floats,
    fun m hm => ⟨fun slash => ?_, (orderly.ids m hm).2.1⟩⟩
  · refine laid f.text 0 _ ?_ ?_ fun i i' hi => hi
    · simp [Text.slice, text]
    · simp [text]
  · have same : ∀ b, b ∈ (Flattened.chosen blocks (drawn settings blocks)).map Prod.fst ↔ b ∈ blocks := by
      intro b
      simp only [List.mem_map, mem_chosen_drawn]
      constructor
      · rintro ⟨c, ⟨hb, -⟩, rfl⟩
        exact hb
      · exact fun hb => ⟨(b, settings.markup b), ⟨hb, rfl⟩, rfl⟩
    rw [← (Block.perm_places collected).mem_iff]
    simp only [List.mem_map (f := Block.place), same]
  · cases (orderly.ids m hm).1 _ slash

end

/-- What is left of a document keeps its numbers. -/
theorem ofText_renumbered (outline : Outline.ofText t = .ok o) (numbering : ofOutline o = .ok n)
    (collected : settings.blocks o = .ok blocks) (success : ofText t n blocks (drawn settings blocks) = .ok f)
    (flat : settings.flattenTables = false) (figures : settings.figureTemplate = none)
    (directory : ∀ c ∈ settings.figureDirectory, isInner c)
    (orderly : Orderly t o (Flattened.chosen blocks (drawn settings blocks))) (directives : f.directivesRemoved = 0)
    (severed : ∀ s ∈ stretches t 0 (Flattened.chosen blocks (drawn settings blocks)), s.Severed t)
    (outline' : Outline.ofText f.text = .ok o') :
    ∃ n', ofOutline o' = .ok n' ∧ ∀ id ∈ n'.ids, id ∈ n.ids ∧ n'.resolve? id = n.resolve? id := by
  rw [Settings.blocks, flat] at collected
  obtain ⟨places, redraws⟩ := exists_redraws outline numbering collected success orderly outline' figures directory
    directives severed
  exact redraws.exists_numbering numbering

/-- An equation, a figure of two images with a label for one of them, and a figure that is kept. -/
def series : Text :=
  "\\begin\x7bequation\x7d\\label\x7be\x7d\\end\x7bequation\x7d\\begin\x7bfigure\x7d\\subfloat\x7b" ++
    "\\includegraphics\x7ba\x7d\\label\x7bp\x7d\x7d\\includegraphics\x7bb\x7d\\caption\x7bBoth\x7d\\label\x7bx\x7d" ++
      "\\end\x7bfigure\x7d\\begin\x7bfigure\x7d\\label\x7by\x7d\\end\x7bfigure\x7d\\ref\x7bp\x7d\\ref\x7by\x7d"

theorem ofText_renumbered_series : ∃ o, Outline.ofText series = .ok o ∧ ∃ n, ofOutline o = .ok n ∧
    ∃ blocks, sampleSettings.blocks o = .ok blocks ∧
      ∃ f, ofText series n blocks (drawn sampleSettings blocks) = .ok f ∧
        ∃ o', Outline.ofText f.text = .ok o' ∧
          ∃ n', ofOutline o' = .ok n' ∧ ∀ id ∈ n'.ids, id ∈ n.ids ∧ n'.resolve? id = n.resolve? id := by
  have good : ∃ o, Outline.ofText series = .ok o ∧ ∃ n, ofOutline o = .ok n ∧
      ∃ blocks, sampleSettings.blocks o = .ok blocks ∧
        ∃ f, ofText series n blocks (drawn sampleSettings blocks) = .ok f ∧
          Orderly series o (Flattened.chosen blocks (drawn sampleSettings blocks)) ∧ f.directivesRemoved = 0 ∧
            (∀ s ∈ stretches series 0 (Flattened.chosen blocks (drawn sampleSettings blocks)), s.Severed series) ∧
              ∃ o', Outline.ofText f.text = .ok o' ∧ o'.figures.length = 2 := by
    set_option synthInstance.maxSize 256 in decide +kernel
  obtain ⟨o, ho, n, hn, blocks, hb, f, hf, orderly, directives, severed, o', ho', -⟩ := good
  exact ⟨o, ho, n, hn, blocks, hb, f, hf, o', ho',
    ofText_renumbered ho hn hb hf rfl rfl (by decide) orderly directives severed ho'⟩

/-- A figure in the bracket group of a command that is only mentioned, as no argument follows it before the
figure ends, and a figure after it. -/
def astray : Text :=
  "\\begin[\\begin\x7bfigure\x7d\\includegraphics\x7ba\x7d]\\includegraphics\x7bb\x7d\\caption\x7bBoth\x7d\\label\x7bx\x7d" ++
    "\\end\x7bfigure\x7d]\x7bz\x7d\\begin\x7bfigure\x7d\\label\x7by\x7d\\end\x7bfigure\x7d"

/-- The figure that takes the place of the first is not found any more, and the other gets its number. -/
theorem exists_renumbered : ∃ o, Outline.ofText astray = .ok o ∧ ∃ n, ofOutline o = .ok n ∧
    ∃ blocks, sampleSettings.blocks o = .ok blocks ∧
      ∃ f, ofText astray n blocks (drawn sampleSettings blocks) = .ok f ∧
        Orderly astray o (Flattened.chosen blocks (drawn sampleSettings blocks)) ∧ f.directivesRemoved = 0 ∧
          ∃ o', Outline.ofText f.text = .ok o' ∧ ∃ n', ofOutline o' = .ok n' ∧
            ∃ id ∈ n'.ids, id ∈ n.ids ∧ n'.resolve? id ≠ n.resolve? id := by
  decide +kernel

end Flattened

end FloatFlattening
