import FloatFlattening.Proofs.Markup.Part
import FloatFlattening.Proofs.Outline.Panel
/-!
Floats of two texts. A float that stands in another text as it was, but for its references, is read
there as it was: its panels, and the marks they own, are those of the float.
-/

namespace FloatFlattening

/-- Corresponding places come in the same order. -/
def Aligned (places : Nat → Nat → Prop) : Prop :=
  ∀ ⦃i i' j j' : Nat⦄, places i i' → places j j' → (i ≤ j ↔ i' ≤ j')

variable {places : Nat → Nat → Prop} {t t' : Text} {s s' r r' : Span} {i i' j j' : Nat}

theorem Aligned.lt_iff (h : Aligned places) (hi : places i i') (hj : places j j') : i < j ↔ i' < j' := by
  rw [← not_le, ← not_le, h hj hi]

theorem Aligned.eq_iff (h : Aligned places) (hi : places i i') (hj : places j j') : i = j ↔ i' = j' := by
  rw [le_antisymm_iff, le_antisymm_iff, h hi hj, h hj hi]

theorem Piece.Solid.aligned {ps : List Piece} (solid : Solid ps) (pos pos' : Nat) : Aligned (At ps pos pos') :=
  fun _ _ _ _ hi hj => hi.le_iff solid hj

structure Span.Matches (places : Nat → Nat → Prop) (s s' : Span) : Prop where
  start : places s.start s'.start
  stop : places s.stop s'.stop

namespace Span.Matches

variable (hs : s.Matches places s') (hr : r.Matches places r') (aligned : Aligned places)

include hs aligned

theorem holds_iff (hi : places i i') : s.Holds i ↔ s'.Holds i' :=
  and_congr (aligned hs.start hi) (aligned.lt_iff hi hs.stop)

include hr

theorem covers_iff : s.Covers r ↔ s'.Covers r' :=
  and_congr (aligned hs.start hr.start) (aligned hr.stop hs.stop)

theorem eq_iff : s = r ↔ s' = r' := by
  have parts (a b : Span) : a = b ↔ a.start = b.start ∧ a.stop = b.stop := Span.mk.injEq .. ▸ Iff.rfl
  rw [parts, parts, aligned.eq_iff hs.start hr.start, aligned.eq_iff hs.stop hr.stop]

end Span.Matches

/-- A mark and the one that stands for it. -/
structure Mark.Matches (places : Nat → Nat → Prop) (m m' : Mark) : Prop where
  span : m.span.Matches places m'.span
  id : m.id = m'.id

theorem Command.Matches.span {c c' : Command} (h : c.Matches places c') : c.span.Matches places c'.span :=
  ⟨h.start, h.stop⟩

theorem Environment.Matches.span {e e' : Environment} (h : e.Matches places e') :
    e.span.Matches places e'.span :=
  ⟨h.start, h.stop⟩

theorem Command.Matches.mark {c c' : Command} (h : c.Matches places c') (slash : '\\' ∉ c.argument.trim) :
    (Mark.ofCommand t c).Matches places (Mark.ofCommand t' c') :=
  ⟨h.span, ((h.trim_eq_iff slash).1 rfl).symm⟩

theorem Mark.forall₂_ofCommand {cs cs' : List Command} (h : List.Forall₂ (Command.Matches places) cs cs')
    (slash : ∀ c ∈ cs, '\\' ∉ (ofCommand t c).id) :
    List.Forall₂ (Mark.Matches places) (cs.map (ofCommand t)) (cs'.map (ofCommand t')) := by
  rw [List.forall₂_map_left_iff, List.forall₂_map_right_iff]
  exact ((List.forall₂_and_left _ _).2 ⟨slash, h⟩).imp fun c c' hc => hc.2.mark hc.1

namespace Span.Kept

theorem matches_marks (h : s.Kept t t' places s') (slash : ∀ m ∈ (Mark.inSpan t s).found, '\\' ∉ m.id) :
    (Mark.inSpan t s).Matches (Mark.Matches places) (Mark.inSpan t' s') := by
  have commands := h.matches_commands ["label"] (by decide)
  exact ⟨Mark.forall₂_ofCommand commands.found fun c hc => slash _ (List.mem_map_of_mem hc), commands.stopped⟩

theorem matches_graphics (h : s.Kept t t' places s') :
    (Graphic.inSpan t s).Matches (fun g g' => g.span.Matches places g'.span) (Graphic.inSpan t' s') :=
  (h.matches_commands _ (by decide)).map fun _ _ hc => hc.span

end Span.Kept

namespace Panel

/-- A panel and the one that stands for it. -/
structure Matches (places : Nat → Nat → Prop) (p p' : Panel) : Prop where
  span : p.span.Matches places p'.span
  marks : List.Forall₂ (Mark.Matches places) p.marks p'.marks

theorem Matches.marks_eq_nil_iff {p p' : Panel} (h : p.Matches places p') : p.marks = [] ↔ p'.marks = [] := by
  rw [← List.length_eq_zero_iff, h.marks.length_eq, List.length_eq_zero_iff]

variable {ps ps' : List Panel} {ms ms' : List Mark} {cs cs' : List Command} {gs gs' : List Graphic}
  {p : Panel} {stop stop' : Nat}

theorem forall₂_outermost (aligned : Aligned places) (h : List.Forall₂ (Matches places) ps ps') :
    List.Forall₂ (Matches places) (outermost ps) (outermost ps') := by
  induction h with
  | nil => exact .nil
  | cons hp h ih =>
    rw [outermost, outermost]
    refine .cons hp (forall₂_filter ih fun q q' hq => ?_)
    rw [decide_eq_decide.2 (hp.span.covers_iff hq.span aligned)]

theorem forall₂_claimMarks (aligned : Aligned places) (h : List.Forall₂ (Matches places) ps ps')
    (hm : List.Forall₂ (Mark.Matches places) ms ms') :
    List.Forall₂ (Matches places) (ps.map (claimMarks ms)) (ps'.map (claimMarks ms')) := by
  rw [List.forall₂_map_left_iff, List.forall₂_map_right_iff]
  refine h.imp fun p p' hp => ⟨hp.span, forall₂_filter hm fun m m' hm => ?_⟩
  exact decide_eq_decide.2 (hp.span.covers_iff hm.span aligned)

theorem rel_own? (aligned : Aligned places) (hstop : places stop stop')
    (hm : List.Forall₂ (Mark.Matches places) ms ms') (hc : List.Forall₂ (Command.Matches places) cs cs')
    {g g' : Graphic} (hg : g.span.Matches places g'.span)
    (h : List.Forall₂ (fun g g' => g.span.Matches places g'.span) gs gs') :
    Option.Rel (Mark.Matches places) (own? stop ms cs g gs) (own? stop' ms' cs' g' gs') := by
  have window : (window stop g gs).Matches places (window stop' g' gs') := by
    refine ⟨hg.stop, ?_⟩
    cases h with
    | nil => exact hstop
    | cons hg => exact hg.start
  refine rel_filter (rel_find? hm fun m m' hm => ?_) fun m m' hm => ?_
  · rw [decide_eq_decide.2 (aligned window.start hm.span.start),
      decide_eq_decide.2 (aligned hm.span.stop window.stop)]
  · rw [any_eq_of_forall₂ hc fun c c' hc => ?_]
    rw [decide_eq_decide.2 (aligned hg.stop hc.start), decide_eq_decide.2 (aligned.lt_iff hc.start hm.span.start)]

theorem forall₂_bare (aligned : Aligned places) (hstop : places stop stop')
    (hm : List.Forall₂ (Mark.Matches places) ms ms') (hc : List.Forall₂ (Command.Matches places) cs cs')
    (h : List.Forall₂ (fun g g' => g.span.Matches places g'.span) gs gs') :
    List.Forall₂ (Matches places) (bare stop ms cs gs) (bare stop' ms' cs' gs') := by
  induction h with
  | nil => exact .nil
  | cons hg h ih =>
    rw [bare_cons, bare_cons]
    refine .cons ⟨hg, ?_⟩ ih
    have own := rel_own? aligned hstop hm hc hg h
    generalize own? stop ms cs _ _ = m? at own
    generalize own? stop' ms' cs' _ _ = m'? at own
    cases own with
    | none => exact .nil
    | some hm => exact .cons hm .nil

theorem forall₂_written (aligned : Aligned places) (h : s.Kept t t' places s') (hp : written t s = .ok ps)
    (hp' : written t' s' = .ok ps') : List.Forall₂ (Matches places) ps ps' := by
  obtain ⟨all, reads, rfl⟩ := exists_forall₂_of_written hp
  obtain ⟨all', reads', rfl⟩ := exists_forall₂_of_written hp'
  have spans : List.Forall₂ (fun c c' => c.span.Matches places c'.span) (constructs t s) (constructs t' s') := by
    refine List.rel_append (List.rel_map ?_ (h.matches_commands _ (by decide)).found)
      (List.rel_map ?_ (h.matches_environments (by decide)).found)
    · exact fun _ _ hc => hc.span
    · exact fun _ _ he => he.span
  have all : List.Forall₂ (Matches places) all all' := by
    refine (forall₂_comp (forall₂_comp reads.flip spans) reads').imp ?_
    rintro p p' ⟨c', ⟨c, read, span⟩, read'⟩
    refine ⟨?_, by rw [read.marks, read'.marks]; exact .nil⟩
    rwa [read.span, read'.span]
  apply forall₂_outermost aligned
  refine forall₂_mergeSort all fun p p' hp q q' hq => ?_
  exact decide_eq_decide.2 (aligned hp.span.start hq.span.start)

end Panel

namespace Figure

/-- A figure and the one that stands for it. -/
structure Matches (places : Nat → Nat → Prop) (f f' : Figure) : Prop where
  span : f.span.Matches places f'.span
  panels : List.Forall₂ (Panel.Matches places) f.panels f'.panels
  graphics : f.graphics.length = f'.graphics.length
  marks : List.Forall₂ (Mark.Matches places) f.marks f'.marks

variable {f f' : Figure} {e e' : Environment} {m m' : Mark} {ps ps' : List Panel}

theorem inPanel_iff (aligned : Aligned places) (h : List.Forall₂ (Panel.Matches places) ps ps')
    (hs : s.Matches places s') : InPanel ps s ↔ InPanel ps' s' := by
  refine exists_mem_iff_of_forall₂ h fun p p' hp => or_congr (hp.span.covers_iff hs aligned) ?_
  exact exists_mem_iff_of_forall₂ hp.marks fun m m' hm => hm.span.eq_iff hs aligned

theorem ofMark?_eq {m? m'? : Option Mark} (h : Option.Rel (Mark.Matches places) m? m'?) :
    FloatName.ofMark? m? = FloatName.ofMark? m'? := by
  cases h with
  | none => rfl
  | some h => rw [FloatName.ofMark?, FloatName.ofMark?, h.id]

/-- A figure that is kept is read as it was. -/
theorem matches_of_ofEnvironment (aligned : Aligned places) (he : e.Matches places e')
    (kept : e.body.Kept t t' places e'.body) (slash : ∀ m ∈ (Mark.inSpan t e.body).found, '\\' ∉ m.id)
    (hf : ofEnvironment t e = .ok f) (hf' : ofEnvironment t' e' = .ok f') : f.Matches places f' := by
  simp only [ofEnvironment, Except.bind_eq_ok_iff, Scan.complete_eq_ok_iff] at hf hf'
  obtain ⟨_, ⟨-, rfl⟩, _, ⟨-, rfl⟩, _, ⟨-, rfl⟩, written, hw, hf⟩ := hf
  obtain ⟨_, ⟨-, rfl⟩, _, ⟨-, rfl⟩, _, ⟨-, rfl⟩, written', hw', hf'⟩ := hf'
  obtain rfl := Except.ok.inj hf
  obtain rfl := Except.ok.inj hf'
  have graphics := kept.matches_graphics.found
  have marks := (kept.matches_marks slash).found
  have captions := (kept.matches_commands ["caption"] (by decide)).found
  have both := Panel.forall₂_written aligned kept hw hw'
  have none : written = [] ↔ written' = [] := by
    rw [← List.length_eq_zero_iff, both.length_eq, List.length_eq_zero_iff]
  -- Both figures have panels of the same kind.
  have panels : List.Forall₂ (Panel.Matches places)
      (if written = [] ∧ 2 ≤ (Graphic.inSpan t e.body).found.length then
        Panel.bare e.body.stop (Mark.inSpan t e.body).found (Command.inSpan t e.body ["caption"]).found
          (Graphic.inSpan t e.body).found
        else written.map (Panel.claimMarks (Mark.inSpan t e.body).found))
      (if written' = [] ∧ 2 ≤ (Graphic.inSpan t' e'.body).found.length then
        Panel.bare e'.body.stop (Mark.inSpan t' e'.body).found (Command.inSpan t' e'.body ["caption"]).found
          (Graphic.inSpan t' e'.body).found
        else written'.map (Panel.claimMarks (Mark.inSpan t' e'.body).found)) := by
    simp only [none, graphics.length_eq]
    split
    · exact Panel.forall₂_bare aligned he.bodyStop marks captions graphics
    · exact Panel.forall₂_claimMarks aligned both marks
  refine ⟨he.span, panels, graphics.length_eq, forall₂_filter marks fun m m' hm => congrArg not ?_⟩
  exact decide_eq_decide.2 (inPanel_iff aligned panels hm.span)

namespace Matches

theorem name_eq (h : f.Matches places f') (hf : ofEnvironment t e = .ok f) (hf' : ofEnvironment t' e' = .ok f') :
    f.name = f'.name := by
  rw [(reads_of_ofEnvironment hf).2, (reads_of_ofEnvironment hf').2, ofMark?_eq (rel_getLast? h.marks)]

theorem needsName_iff (h : f.Matches places f') : f.NeedsName ↔ f'.NeedsName := by
  refine or_congr ?_ (exists_mem_iff_of_forall₂ h.panels fun p p' hp => not_congr hp.marks_eq_nil_iff)
  rw [IsMulti, IsMulti, h.panels.length_eq, h.graphics]

theorem rename (h : f.Matches places f') (name name' : FloatName) :
    Matches places { f with name } { f' with name := name' } :=
  ⟨h.span, h.panels, h.graphics, h.marks⟩

end Matches

end Figure

namespace Table

/-- A table and the one that stands for it. -/
structure Matches (places : Nat → Nat → Prop) (table table' : Table) : Prop where
  span : table.span.Matches places table'.span
  marks : List.Forall₂ (Mark.Matches places) table.marks table'.marks

variable {table table' : Table} {e e' : Environment}

theorem matches_of_ofEnvironment (he : e.Matches places e') (kept : e.body.Kept t t' places e'.body)
    (slash : ∀ m ∈ (Mark.inSpan t e.body).found, '\\' ∉ m.id) (h : ofEnvironment t e = .ok table)
    (h' : ofEnvironment t' e' = .ok table') : table.Matches places table' := by
  have reads := reads_of_ofEnvironment h
  have reads' := reads_of_ofEnvironment h'
  refine ⟨?_, ?_⟩
  · rw [reads.span, reads'.span]
    exact he.span
  · rw [reads.marks, reads'.marks]
    exact (kept.matches_marks slash).found

end Table

end FloatFlattening
