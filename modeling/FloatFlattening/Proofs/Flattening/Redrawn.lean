import FloatFlattening.Proofs.Flattening.Laid
import FloatFlattening.Proofs.Flattening.Overlap
import FloatFlattening.Proofs.Numbering.Replaced
/-!
The outline of a document in which lone figures have taken the places of the blocks. All that is not in
a block is in it as it was.
-/

namespace FloatFlattening

open Text

/-- A figure, and the lone figure that takes its place. -/
structure Figure.Redrawn (t' : Text) (places : Nat → Nat → Prop) (f g : Figure) : Prop where
  multi : f.IsMulti
  span : f.span.Matches places g.span
  panels : g.panels = []
  lone : ∃ id b e m, Figure.Lone t' g.span id b e m ∧ g.marks = [Mark.ofCommand t' m] ∧ g.name = .labelled id ∧
    f.name.id? = some id

/-- The label of a lone figure lies between its two ends. -/
theorem Figure.Lone.apart {t : Text} {s : Span} {id : Text} {b f m c d : Command} (h : Lone t s id b f m)
    (hc : c ∈ (Command.inSpan t s ["label"]).found) (hd : d ∈ (Command.inSpan t s ["begin", "end"]).found) :
    c.span.Apart d.span := by
  have inside : m ∈ (Command.inSpan t ⟨b.span.stop, f.span.start⟩ ["label"]).found := by
    rw [h.label]
    exact List.mem_singleton_self m
  have := Command.bounds_of_mem_inSpan inside
  rw [h.labels] at hc
  rw [h.delimiters] at hd
  simp only [List.mem_cons, List.not_mem_nil, or_false] at hc hd
  subst hc
  rcases hd with rfl | rfl
  · exact .inr this.1
  · exact .inl this.2

namespace Flattened

/-- Two documents, of which the second has lone figures in the places of the figures to be flattened. -/
structure Redraws (t : Text) (o : Outline) (t' : Text) (o' : Outline) (places : Nat → Nat → Prop)
    (bs : List Block) : Prop where
  outline : Outline.ofText t = .ok o
  outline' : Outline.ofText t' = .ok o'
  aligned : Aligned places
  laid : Laid t o t' places 0 0 bs
  blocks : ∀ p, p ∈ bs.map Block.place ↔ p ∈ Block.places false o
  marks : o.MarksApart
  floats : ∀ f ∈ o.multiFigures, ∀ s ∈ o.tables.map Table.span ++ o.equations, s.Apart f.span
  ids : ∀ m ∈ o.marks, '\\' ∉ m.id ∧ ¬ "fig:multifig" <+: m.id

/-- A lone figure that stands in the place of a block. -/
structure Takes (t' : Text) (places : Nat → Nat → Prop) (b : Block) (s' : Span) (id : Text) (x y m : Command) :
    Prop where
  name : b.name.id? = some id
  stands : b.span.Matches places s'
  lone : Figure.Lone t' s' id x y m

/-- An environment that does not lie over an end of a block. -/
def Sided (bs : List Block) (e : Environment) : Prop := ∀ b ∈ bs, e.span.Apart b.span ∨ b.span.Covers e.span

theorem Sided.apart {bs : List Block} {e : Environment} (h : Sided bs e) (proper : e.span.start < e.span.stop)
    (clear : Clear 0 bs e.span) : ∀ b ∈ bs, e.span.Apart b.span := by
  refine fun b hb => (h b hb).resolve_right fun covers => clear.2 b hb ⟨covers.1, ?_⟩
  have := covers.2
  omega

namespace Redraws

variable {t t' : Text} {o o' : Outline} {places : Nat → Nat → Prop} {bs : List Block} {b b' : Block}
  {f g : Figure} {c d c' : Command} {e e' : Environment} {names : List Text} {s : Span} {raw raw' : List Figure}
  (h : Redraws t o t' o' places bs)

include h

theorem reads : o.Reads t := Outline.reads_of_ofText h.outline

theorem reads' : o'.Reads t' := Outline.reads_of_ofText h.outline'

/-- The figure that a block is. -/
theorem exists_figure (hb : b ∈ bs) : ∃ f ∈ o.figures, f.IsMulti ∧ f.span = b.span ∧ f.name = b.name := by
  have mem := (h.blocks b.place).1 (List.mem_map_of_mem hb)
  simp only [Block.places, Outline.multiFigures, Bool.false_eq_true, if_false, List.append_nil, List.mem_map,
    List.mem_filter, decide_eq_true_eq] at mem
  obtain ⟨f, ⟨hf, multi⟩, eq⟩ := mem
  obtain ⟨span, name⟩ := Prod.mk.inj eq
  exact ⟨f, hf, multi, span, name⟩

/-- The block that a figure is. -/
theorem exists_block (hf : f ∈ o.figures) (multi : f.IsMulti) : ∃ b ∈ bs, b.span = f.span ∧ b.name = f.name := by
  have mem : (f.span, f.name) ∈ Block.places false o := by
    simp only [Block.places, Outline.multiFigures, Bool.false_eq_true, if_false, List.append_nil, List.mem_map,
      List.mem_filter, decide_eq_true_eq]
    exact ⟨f, ⟨hf, multi⟩, rfl⟩
  obtain ⟨b, hb, eq⟩ := List.mem_map.1 ((h.blocks _).2 mem)
  obtain ⟨span, name⟩ := Prod.mk.inj eq
  exact ⟨b, hb, span, name⟩

theorem exists_environment (hb : b ∈ bs) :
    ∃ e ∈ (Environment.all t Outline.figureNames).found, e.span = b.span := by
  obtain ⟨f, hf, -, span, -⟩ := h.exists_figure hb
  obtain ⟨e, he, reads⟩ := exists_left_of_forall₂ h.reads.figures hf
  exact ⟨e, he, reads.span.symm.trans span⟩

theorem eq_or_apart (hb : b ∈ bs) (hb' : b' ∈ bs) : b.span = b'.span ∨ b.span.Apart b'.span := by
  obtain ⟨f, hf, -, span, -⟩ := h.exists_figure hb
  obtain ⟨g, hg, -, span', -⟩ := h.exists_figure hb'
  rw [← span, ← span']
  exact (FloatFlattening.eq_or_apart h.reads.pairwise_figures hf hg).imp (congrArg Figure.span) id

theorem start_lt_stop (hb : b ∈ bs) : b.span.start < b.span.stop := by
  obtain ⟨e, he, span⟩ := h.exists_environment hb
  have lies := Environment.liesIn_of_mem_all he
  have := lies.start_lt
  have := lies.body_le
  have := lies.lt_stop
  rw [← span]
  omega

/-! Commands. -/

theorem stopped (hn : names ∈ searches) : (Command.all t names).stopped = none := by
  simp only [searches, List.mem_cons, List.not_mem_nil, or_false] at hn
  rcases hn with rfl | rfl
  · exact h.reads.whole
  · obtain ⟨raw, parses⟩ := Outline.exists_parses h.outline
    exact Environment.stopped_of_pair parses.figuresWhole

/-- A command is a delimiter or apart from it. -/
theorem eq_or_apart_delimiter (hn : names ∈ searches) (hc : c ∈ (Command.all t names).found)
    (hd : d ∈ Environment.delimiters t) : c = d ∨ c.span.Apart d.span := by
  simp only [searches, List.mem_cons, List.not_mem_nil, or_false] at hn
  rcases hn with rfl | rfl
  · right
    have mark : Mark.ofCommand t c ∈ o.marks := h.reads.marks ▸ List.mem_map_of_mem hc
    exact h.marks _ mark d (h.reads.text ▸ hd)
  · exact FloatFlattening.eq_or_apart (@Command.pairwise_found _ 0 _) hc hd

/-- A command lies apart from a block or in it. -/
theorem apart_or_covers (hn : names ∈ searches) (hc : c ∈ (Command.all t names).found) (hb : b ∈ bs) :
    c.span.Apart b.span ∨ b.span.Covers c.span := by
  obtain ⟨e, he, span⟩ := h.exists_environment hb
  have lies := Environment.liesIn_of_mem_all he
  obtain ⟨x, hx, begins⟩ := lies.begins
  obtain ⟨y, hy, ends⟩ := lies.ends
  have := lies.start_lt
  have := lies.body_le
  have := lies.lt_stop
  have first := h.eq_or_apart_delimiter hn hc hx
  have last := h.eq_or_apart_delimiter hn hc hy
  simp only [Span.Apart, Span.Covers, begins, ends, ← span] at first last ⊢
  rcases first with rfl | first
  · rw [begins]
    dsimp only
    omega
  · rcases last with rfl | last
    · rw [ends]
      dsimp only
      omega
    · omega

theorem stop_le (hn : names ∈ searches) (hc : c ∈ (Command.all t names).found) (hb : b ∈ bs) :
    b.span.stop ≤ c.span.start ∨ c.span.stop ≤ b.span.stop := by
  have := h.start_lt_stop hb
  have := h.apart_or_covers hn hc hb
  unfold Span.Apart Span.Covers at this
  omega

/-- The commands of the second document: those outside blocks, and those of lone figures. -/
theorem woven_commands (hn : names ∈ searches) :
    Woven (fun c c' => c.Matches places c' ∧ Clear 0 bs c.span)
      (Swap t' places Command.span (fun s => (Command.inSpan t' s names).found) bs (Command.all t names).found)
      (Command.all t names).found (Command.all t' names).found := by
  have stopped := h.stopped hn
  have sides := fun c hc b hb => h.stop_le (c := c) (b := b) hn hc hb
  rw [Command.all_eq_inSpan] at stopped sides
  rw [Command.all_eq_inSpan, Command.all_eq_inSpan]
  exact h.laid.woven_commands hn rfl stopped sides

/-- Where a command of the second document comes from. -/
theorem exists_of_mem (hn : names ∈ searches) (hc : c' ∈ (Command.all t' names).found) :
    (∃ c ∈ (Command.all t names).found, c.Matches places c' ∧ ∀ b ∈ bs, c.span.Apart b.span) ∨
      ∃ b ∈ bs, ∃ s' id x y m, Takes t' places b s' id x y m ∧ c' ∈ (Command.inSpan t' s' names).found := by
  rcases (h.woven_commands hn).within.mem_right hc with ⟨c, -, ⟨matches_, clear⟩, mem⟩ | ⟨part, part', ⟨swap, -⟩, -, mem⟩
  · refine .inl ⟨c, mem, matches_, fun b hb => (h.apart_or_covers hn mem hb).resolve_right fun covers => ?_⟩
    have := Command.start_lt_stop mem
    exact clear.2 b hb ⟨covers.1, by have := covers.2; omega⟩
  · obtain ⟨hb, name, stands, lone, -, -, rfl⟩ := swap
    exact .inr ⟨_, hb, _, _, _, _, _, ⟨name, stands, lone⟩, mem⟩

/-- Parts that lie apart in one document lie apart in the other. -/
theorem apart_of_matches {s r s' r' : Span} (hs : s.Matches places s') (hr : r.Matches places r') (apart : s.Apart r) :
    s'.Apart r' :=
  apart.imp (h.aligned hs.stop hr.start).1 (h.aligned hr.stop hs.start).1

theorem marks' : o'.MarksApart := by
  intro m' hm' d' hd'
  rw [h.reads'.text] at hd'
  rw [h.reads'.marks] at hm'
  obtain ⟨c', hc', rfl⟩ := List.mem_map.1 hm'
  change c'.span.Apart d'.span
  have label : (["label"] : List Text) ∈ searches := by decide
  have delimiter : (["begin", "end"] : List Text) ∈ searches := by decide
  -- What is in a lone figure lies apart from what is apart from the block.
  have within {b : Block} {s' r r' : Span} {id : Text} {x y m e : Command} {names : List Text}
      (takes : Takes t' places b s' id x y m) (he : e ∈ (Command.inSpan t' s' names).found)
      (kept : r.Matches places r') (apart : r.Apart b.span) : r'.Apart e.span := by
    have := h.apart_of_matches kept takes.stands apart
    have := Command.bounds_of_mem_inSpan he
    unfold Span.Apart at *
    omega
  rcases h.exists_of_mem label hc' with ⟨c, hc, kept, outside⟩ | ⟨b, hb, s', id, x, y, m, takes, mem⟩ <;>
    rcases h.exists_of_mem delimiter hd' with ⟨d, hd, kept', outside'⟩ | ⟨b₁, hb₁, s₁, id₁, x₁, y₁, m₁, takes₁, mem₁⟩
  · have mark : Mark.ofCommand t c ∈ o.marks := h.reads.marks ▸ List.mem_map_of_mem hc
    exact h.apart_of_matches kept.span kept'.span (h.marks _ mark d (h.reads.text ▸ hd))
  · exact within takes₁ mem₁ kept.span (outside b₁ hb₁)
  · exact (within takes mem kept'.span (outside' b hb)).symm
  · rcases h.eq_or_apart hb hb₁ with same | apart
    · obtain rfl : s' = s₁ := (takes.stands.eq_iff (same ▸ takes₁.stands) h.aligned).1 rfl
      exact takes.lone.apart mem mem₁
    · have := h.apart_of_matches takes.stands takes₁.stands apart
      have := Command.bounds_of_mem_inSpan mem
      have := Command.bounds_of_mem_inSpan mem₁
      unfold Span.Apart at *
      omega

/-! Environments. -/

theorem woven_environments (hn : ∀ name ∈ names, '\\' ∉ name) (whole : (Environment.all t names).stopped = none)
    (sided : ∀ e ∈ (Environment.all t names).found, Sided bs e) :
    Woven (fun e e' => Environment.Kept t t' places e e' ∧ Clear 0 bs e.span)
      (Swap t' places Environment.span (fun s => (Environment.inSpan t' s names).found) bs
        (Environment.all t names).found)
      (Environment.all t names).found (Environment.all t' names).found := by
  have delimiter : (["begin", "end"] : List Text) ∈ searches := by decide
  have delimited := h.stopped delimiter
  have sides := fun c hc b hb => h.stop_le (c := c) (b := b) delimiter hc hb
  rw [Environment.all_eq_inSpan] at whole sided ⊢
  rw [Environment.all_eq_inSpan]
  rw [Command.all_eq_inSpan] at delimited sides
  refine h.laid.woven_environments hn rfl delimited whole sides fun e he b hb => ?_
  rcases sided e he b hb with (early | late) | covers
  · exact .inl early
  · exact .inr (.inr late)
  · exact .inr (.inl covers)

theorem sided_figure (he : e ∈ (Environment.all t Outline.figureNames).found) : Sided bs e := by
  intro b hb
  obtain ⟨eb, heb, span⟩ := h.exists_environment hb
  rw [← span]
  rcases FloatFlattening.eq_or_apart (Environment.pairwise_all t Outline.figureNames) he heb with rfl | apart
  · exact .inr ⟨Nat.le_refl _, Nat.le_refl _⟩
  · exact .inl apart

/-- An environment of a figure, with what stands for it. -/
inductive Comes (t t' : Text) (places : Nat → Nat → Prop) (bs : List Block) (e e' : Environment) : Prop
  | kept (kept : Environment.Kept t t' places e e') (outside : ∀ b ∈ bs, e.span.Apart b.span)
  | lone {b : Block} {id : Text} {x y m : Command} (mem : b ∈ bs) (span : e.span = b.span)
      (takes : Takes t' places b e'.span id x y m) (body : e'.body = ⟨x.span.stop, y.span.start⟩)

theorem forall₂_comes : List.Forall₂ (Comes t t' places bs) (Environment.all t Outline.figureNames).found
    (Environment.all t' Outline.figureNames).found := by
  obtain ⟨raw, parses⟩ := Outline.exists_parses h.outline
  refine (h.woven_environments (by decide) parses.figuresWhole fun e he => h.sided_figure he).within.forall₂ ?_ ?_
  · rintro e e' ⟨⟨kept, clear⟩, he⟩
    exact .kept kept ((h.sided_figure he).apart (Environment.start_lt_stop he) clear)
  · rintro part part' ⟨swap, sub⟩
    obtain ⟨hb, name, stands, lone, inside, all, rfl⟩ := swap
    obtain ⟨e, he, span⟩ := h.exists_environment hb
    have mem : e ∈ part := all e he (span ▸ ⟨Nat.le_refl _, Nat.le_refl _⟩)
    -- No other figure is in the block.
    have only : ∀ d ∈ part, d = e := by
      intro d hd
      have := Environment.start_lt_stop (sub.subset hd)
      have covers := inside d hd
      refine (FloatFlattening.eq_or_apart (Environment.pairwise_all t Outline.figureNames) (sub.subset hd) he).resolve_right
        fun apart => ?_
      unfold Span.Apart Span.Covers at *
      rw [span] at apart
      omega
    have sorted := (Environment.pairwise_all t Outline.figureNames).sublist sub
    have single := eq_singleton_of_pairwise sorted (Nat.not_le_of_lt (Environment.start_lt_stop he)) mem only
    rw [single, lone.environments_eq (by decide)]
    exact .cons (.lone hb span ⟨name, stands, lone⟩ rfl) .nil

/-! Figures. -/

/-- A label of the second document is one of the first, or the name of a block. -/
theorem exists_id {id : Text} (hid : id ∈ o'.marks.map Mark.id) :
    id ∈ o.marks.map Mark.id ∨ ∃ b ∈ bs, b.name.id? = some id := by
  have label : (["label"] : List Text) ∈ searches := by decide
  obtain ⟨m', hm', rfl⟩ := List.mem_map.1 hid
  rw [h.reads'.marks] at hm'
  obtain ⟨c', hc', rfl⟩ := List.mem_map.1 hm'
  rcases h.exists_of_mem label hc' with ⟨c, hc, kept, -⟩ | ⟨b, hb, s', id, x, y, m, takes, mem⟩
  · have mark : Mark.ofCommand t c ∈ o.marks := h.reads.marks ▸ List.mem_map_of_mem hc
    have same : (Mark.ofCommand t c).Matches places (Mark.ofCommand t' c') := kept.mark (h.ids _ mark).1
    exact .inl (List.mem_map.2 ⟨_, mark, same.id⟩)
  · rw [takes.lone.labels] at mem
    obtain rfl := List.mem_singleton.1 mem
    exact .inr ⟨b, hb, takes.name.trans (congrArg some takes.lone.id.symm)⟩

/-- A label made for a figure that is kept is not taken in the second document. -/
theorem made_not_mem {id : Text} (hf : f ∈ o.figures) (single : ¬ f.IsMulti) (made : f.name = .synthetic id) :
    id ∉ o'.marks.map Mark.id := by
  have made : f.made? = some id := by rw [Figure.made?, made]
  have own := h.reads.made_not_mem id (List.mem_filterMap.2 ⟨f, hf, made⟩)
  intro taken
  rcases h.exists_id taken with mem | ⟨b, hb, name⟩
  · exact own mem
  · obtain ⟨g, hg, multi, -, eq⟩ := h.exists_figure hb
    rw [← eq] at name
    rcases h.reads.mem_marks_or_made h.marks hg name with mem | made'
    · exact own mem
    · exact single (eq_of_nodup_filterMap h.reads.nodup_made hf hg made made' ▸ multi)

theorem single_of_apart (hf : f ∈ o.figures) (span : f.span = e.span) (proper : e.span.start < e.span.stop)
    (outside : ∀ b ∈ bs, e.span.Apart b.span) : ¬ f.IsMulti := by
  intro multi
  obtain ⟨b, hb, same, -⟩ := h.exists_block hf multi
  have := outside b hb
  rw [same, span] at this
  unfold Span.Apart at this
  omega

/-- What becomes of a figure, before the figures of the second document are named. -/
theorem survives_of_comes {f₀ : Figure} (he : e ∈ (Environment.all t Outline.figureNames).found)
    (he' : e' ∈ (Environment.all t' Outline.figureNames).found) (comes : Comes t t' places bs e e')
    (hf₀ : Figure.ofEnvironment t e = .ok f₀) (hf : f ∈ o.figures) (named : Outline.Named (o.marks.map Mark.id) f₀ f)
    (hg : Figure.ofEnvironment t' e' = .ok g) :
    Outline.Survives (fun f g => ¬ f.IsMulti ∧ f.Matches places g) (Figure.Redrawn t' places)
      (o'.marks.map Mark.id) f g := by
  obtain ⟨reads, first⟩ := Figure.reads_of_ofEnvironment hf₀
  have span : f.span = e.span := by
    rw [← reads.span]
    cases named <;> rfl
  have proper := Environment.start_lt_stop he
  cases comes with
  | kept kept outside =>
    have single := h.single_of_apart hf span proper outside
    have slash : ∀ m ∈ (Mark.inSpan t e.body).found, '\\' ∉ m.id := fun m hm =>
      (h.ids m (h.reads.mem_marks_of_mem_body h.marks (Environment.liesIn_of_mem_all he) reads.whole hm)).1
    have same := Figure.matches_of_ofEnvironment h.aligned kept.stands kept.body slash hf₀ hg
    have name := same.name_eq hf₀ hg
    cases named with
    | kept =>
      refine .kept ⟨single, same⟩ ?_ same.needsName_iff fun id made => h.made_not_mem hf single made
      rw [← name, first]
      cases f.marks.getLast? <;> rfl
    | made k unnamed =>
      refine .kept ⟨single, same.rename _ g.name⟩ ?_ same.needsName_iff fun id made => h.made_not_mem hf single made
      rw [← name, unnamed]
      rfl
  | @lone b id x y m hb spanB takes body =>
    obtain ⟨f₁, hf₁, multi, span₁, name₁⟩ := h.exists_figure hb
    obtain rfl : f = f₁ := by
      refine (FloatFlattening.eq_or_apart h.reads.pairwise_figures hf hf₁).resolve_right fun apart => ?_
      rw [span, span₁, ← spanB] at apart
      unfold Span.Apart at apart
      omega
    obtain ⟨panels, marks, name⟩ := takes.lone.figure body hg
    have reads' := (Figure.reads_of_ofEnvironment hg).1
    have found : Mark.ofCommand t' m ∈ (Mark.inSpan t' e'.body).found := by
      rw [Mark.inSpan, body, takes.lone.label]
      exact List.mem_singleton_self _
    have mem := h.reads'.mem_marks_of_mem_body h.marks' (Environment.liesIn_of_mem_all he') reads'.whole found
    have hid : (Mark.ofCommand t' m).id = id := takes.lone.id
    have same : f.name.id? = some id := name₁ ▸ takes.name
    refine .replaced ⟨multi, ?_, panels, id, x, y, m, ?_, marks, name, same⟩ name same (hid ▸ List.mem_map_of_mem mem)
    · rw [span₁, reads'.span]
      exact takes.stands
    · rw [reads'.span]
      exact takes.lone

theorem survives (parses : Outline.Parses t o raw) (parses' : Outline.Parses t' o' raw') :
    List.Forall₂ (Outline.Survives (fun f g => ¬ f.IsMulti ∧ f.Matches places g) (Figure.Redrawn t' places)
      (o'.marks.map Mark.id)) o.figures raw' := by
  have named := Outline.forall₂_nameFigures (o.marks.map Mark.id) 0 raw
  rw [← parses.named] at named
  have figures := forall₂_comp (forall₂_mem named).flip parses.figures.flip
  refine (forall₂_comp (forall₂_comp figures (forall₂_mem h.forall₂_comes)) parses'.figures).imp ?_
  rintro f g ⟨e', ⟨e, ⟨f₀, ⟨⟨-, hf⟩, named⟩, hf₀⟩, ⟨he, he'⟩, comes⟩, hg⟩
  exact h.survives_of_comes he he' comes hf₀ hf named hg

/-- The figures of the second document. -/
theorem forall₂_figures : List.Forall₂ (fun f g => ¬ f.IsMulti ∧ f.Matches places g ∧ f.name = g.name ∨
    Figure.Redrawn t' places f g) o.figures o'.figures := by
  obtain ⟨raw, parses⟩ := Outline.exists_parses h.outline
  obtain ⟨raw', parses'⟩ := Outline.exists_parses h.outline'
  have named := Outline.forall₂_nameFigures (o.marks.map Mark.id) 0 raw
  rw [← parses.named] at named
  have unmade : ∀ f ∈ raw, f.made? = none := by
    intro f hf
    obtain ⟨e, -, he⟩ := exists_left_of_forall₂ parses.figures hf
    rw [Figure.made?, (Figure.reads_of_ofEnvironment he).2]
    cases f.marks.getLast? <;> rfl
  have free (i : Nat) : Outline.syntheticLabel i ∉ o.marks.map Mark.id := by
    intro mem
    obtain ⟨m, hm, eq⟩ := List.mem_map.1 mem
    exact (h.ids m hm).2 (eq ▸ List.prefix_append _ _)
  obtain ⟨count, made⟩ := Outline.exists_range'_made unmade free 0
  rw [← parses.named] at made
  have all := Outline.forall₂_nameFigures_survives (h.survives parses parses') (fun f hf unnamed => ?_)
    (fun f hf synthetic => ?_) made (Nat.le_refl 0) fun i lt le => absurd lt (Nat.not_lt_of_le le)
  · rw [← parses'.named] at all
    refine all.imp ?_
    rintro f g (⟨g', ⟨single, same⟩, rfl⟩ | ⟨redrawn, -⟩)
    · exact .inl ⟨single, same.rename f.name f.name, rfl⟩
    · exact .inr redrawn
  · obtain ⟨f₀, -, hf₀⟩ := exists_left_of_forall₂ named hf
    cases hf₀ with
    | kept needs => exact needs unnamed
    | made => cases unnamed
  · obtain ⟨f₀, hf₀, hn⟩ := exists_left_of_forall₂ named hf
    cases hn with
    | kept =>
      have := unmade f hf₀
      cases hname : f.name <;> simp_all [Figure.made?, FloatName.isSynthetic]
    | made k unnamed needs => exact needs

theorem stands : List.Forall₂ (Figure.Stands places) o.figures o'.figures := by
  refine h.forall₂_figures.imp ?_
  rintro f g (⟨single, same, name⟩ | redrawn)
  · exact .kept single same name
  · obtain ⟨id, b, e, m, lone, marks, name, same⟩ := redrawn.lone
    obtain rfl : (Mark.ofCommand t' m).id = id := lone.id
    exact .replaced redrawn.multi redrawn.span redrawn.panels _ marks name same

theorem exists_redrawn (hb : b ∈ bs) : ∃ f ∈ o.figures, ∃ g ∈ o'.figures, f.span = b.span ∧ Figure.Redrawn t' places f g := by
  obtain ⟨f, hf, multi, span, -⟩ := h.exists_figure hb
  obtain ⟨g, hg, both⟩ := exists_right_of_forall₂ h.forall₂_figures hf
  exact ⟨f, hf, g, hg, span, both.resolve_left fun kept => kept.1 multi⟩

/-! Tables, equations and marks. -/

/-- Environments that lie apart from the blocks are kept. -/
theorem forall₂_kept (hn : ∀ name ∈ names, '\\' ∉ name) (other : ("figure" : Text) ∉ names)
    (whole : (Environment.all t names).stopped = none)
    (outside : ∀ e ∈ (Environment.all t names).found, ∀ b ∈ bs, e.span.Apart b.span) :
    List.Forall₂ (Environment.Kept t t' places) (Environment.all t names).found (Environment.all t' names).found := by
  refine (h.woven_environments hn whole fun e he b hb => .inl (outside e he b hb)).within.forall₂ ?_ ?_
  · exact fun e e' both => both.1.1
  · rintro part part' ⟨swap, sub⟩
    obtain ⟨hb, -, -, lone, inside, -, rfl⟩ := swap
    rw [lone.environments_eq_nil other]
    suffices part = [] by
      rw [this]
      exact .nil
    refine List.eq_nil_iff_forall_not_mem.2 fun e he => ?_
    have := Environment.start_lt_stop (sub.subset he)
    have := outside e (sub.subset he) _ hb
    have := inside e he
    unfold Span.Apart Span.Covers at *
    omega

/-- What a flattened figure lies apart from lies apart from its block. -/
theorem outside_of_floats (hs : s ∈ o.tables.map Table.span ++ o.equations) (hb : b ∈ bs) : s.Apart b.span := by
  obtain ⟨f, hf, multi, span, -⟩ := h.exists_figure hb
  exact span ▸ h.floats f (List.mem_filter.2 ⟨hf, decide_eq_true multi⟩) s hs

theorem tables : List.Forall₂ (Table.Matches places) o.tables o'.tables := by
  obtain ⟨raw, parses⟩ := Outline.exists_parses h.outline
  obtain ⟨raw', parses'⟩ := Outline.exists_parses h.outline'
  have outside : ∀ e ∈ (Environment.all t Outline.tableNames).found, ∀ b ∈ bs, e.span.Apart b.span := by
    intro e he b hb
    obtain ⟨table, ht, reads⟩ := exists_right_of_forall₂ h.reads.tables he
    exact h.outside_of_floats (List.mem_append_left _ (List.mem_map.2 ⟨table, ht, reads.span⟩)) hb
  have kept := h.forall₂_kept (by decide) (by decide) parses.tablesWhole outside
  refine (forall₂_comp (forall₂_comp (forall₂_mem parses.tables).flip kept) parses'.tables).imp ?_
  rintro table table' ⟨e', ⟨e, ⟨⟨he, -⟩, ht⟩, kept⟩, ht'⟩
  refine Table.matches_of_ofEnvironment kept.stands kept.body (fun m hm => ?_) ht ht'
  exact (h.ids m (h.reads.mem_marks_of_mem_body h.marks (Environment.liesIn_of_mem_all he)
    (Table.reads_of_ofEnvironment ht).whole hm)).1

theorem equations : List.Forall₂ (Span.Matches places) o.equations o'.equations := by
  obtain ⟨raw, parses⟩ := Outline.exists_parses h.outline
  obtain ⟨raw', parses'⟩ := Outline.exists_parses h.outline'
  have outside : ∀ e ∈ (Environment.all t Outline.equationNames).found, ∀ b ∈ bs, e.span.Apart b.span := by
    intro e he b hb
    refine h.outside_of_floats (List.mem_append_right _ ?_) hb
    rw [parses.equations]
    exact List.mem_map_of_mem he
  rw [parses.equations, parses'.equations, List.forall₂_map_left_iff, List.forall₂_map_right_iff]
  exact (h.forall₂_kept (by decide) (by decide) parses.equationsWhole outside).imp fun e e' kept => kept.stands.span

theorem replaced : o.Replaced places o' := by
  refine ⟨h.aligned, h.stands, h.tables, h.equations, ?_⟩
  have label : (["label"] : List Text) ∈ searches := by decide
  rw [h.reads.marks, h.reads'.marks]
  refine (h.woven_commands label).within.map ?_ ?_
  · rintro c c' ⟨⟨kept, clear⟩, hc⟩
    have mark : Mark.ofCommand t c ∈ o.marks := h.reads.marks ▸ List.mem_map_of_mem hc
    refine ⟨kept.mark (h.ids _ mark).1, fun f hf multi holds => ?_⟩
    obtain ⟨b, hb, span, -⟩ := h.exists_block hf multi
    exact clear.2 b hb (span ▸ holds)
  · rintro part part' ⟨swap, sub⟩
    obtain ⟨hb, -, stands, lone, inside, -, rfl⟩ := swap
    obtain ⟨f, hf, g, hg, span, redrawn⟩ := h.exists_redrawn hb
    refine ⟨fun m hm => ⟨f, hf, ?_⟩, fun m' hm' => ⟨g, hg, ?_⟩⟩
    · obtain ⟨c, hc, rfl⟩ := List.mem_map.1 hm
      have := Command.start_lt_stop (sub.subset hc)
      have := (inside c hc).2
      exact span ▸ ⟨(inside c hc).1, show c.span.start < _ by omega⟩
    · obtain ⟨c, hc, rfl⟩ := List.mem_map.1 hm'
      obtain ⟨id, x, y, m, lone', marks, name, -⟩ := redrawn.lone
      obtain rfl := ((span ▸ stands).eq_iff redrawn.span h.aligned).1 rfl
      have bounds := Command.bounds_of_mem_inSpan hc
      have proper := Command.start_lt_stop hc
      rw [lone'.labels] at hc
      obtain rfl := List.mem_singleton.1 hc
      have main : g.mainMark? = some (Mark.ofCommand t' c) := by
        simp [Figure.mainMark?, name, marks, FloatName.isSynthetic]
      exact ⟨⟨bounds.1, by change c.span.start < _; omega⟩,
        Figure.isVisitedWith_iff.2 ⟨_, Figure.mem_visited.2 (.inl main), rfl⟩⟩

/-- The numbers of what is left of the first document are those of the second. -/
theorem exists_numbering {n : Numbering} (numbering : Numbering.ofOutline o = .ok n) :
    ∃ n', Numbering.ofOutline o' = .ok n' ∧ ∀ id ∈ n'.ids, id ∈ n.ids ∧ n'.resolve? id = n.resolve? id :=
  h.replaced.exists_numbering h.reads h.reads' h.marks h.marks' numbering

end Redraws

end Flattened

end FloatFlattening
