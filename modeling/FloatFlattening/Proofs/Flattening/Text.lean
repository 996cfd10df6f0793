import FloatFlattening.Proofs.Flattening.Laid
import FloatFlattening.Proofs.Flattening.Pieces
/-!
The text of a flattening: what stands between the blocks, with its references exchanged, and a lone
figure in the place of every block.
-/

namespace FloatFlattening.Flattened

open Text Piece

variable {t t' : Text} {o : Outline} {n : Numbering} {flattened : List Text} {last : Nat}
  {chosen : List (Block × Text)}

/-- A block with the lone figure that is to take its place. -/
structure Shown (t : Text) (o : Outline) (c : Block × Text) : Prop where
  reads : ∃ e, c.1.Reads t o e
  lone : ∃ id, c.1.name.id? = some id ∧ '\\' ∉ id ∧ ∃ b f m, Figure.Lone c.2 ⟨0, c.2.length⟩ id b f m
  bare : Bare c.2 ⟨0, c.2.length⟩

/-- A gap that reads the same by itself and with its references exchanged. -/
structure Even (n : Numbering) (flattened : List Text) (t : Text) (s : Span) : Prop where
  fits : (Stretch.gap s).Fits t
  directives : ((Stretch.gap s).passage n flattened t).directives = 0
  bare : Bare t s
  closed : ∀ names ∈ searches, (Command.inSpan t s names).stopped = none

theorem Even.exists_pieces {s : Span} (h : Even n flattened t s) (hn : n.Sound)
    (names : ∀ name ∈ flattened, ∀ c ∈ name, isInner c) (free : escapes (t.take s.start) = false) :
    ∃ ps, Exchanged ps ∧ olds ps = t.slice s ∧ news ps = ((Stretch.gap s).passage n flattened t).text := by
  rw [text_gap h.directives]
  exact exists_pieces_exchange hn names h.fits.1 h.fits.2 free h.bare (Reference.ofCommand t) fun _ => rfl

theorem exists_pieces_float {markup : Text} (bare : Bare markup ⟨0, markup.length⟩) (hn : n.Sound)
    (names : ∀ name ∈ flattened, ∀ c ∈ name, isInner c) (t : Text) (line : Nat) :
    ∃ ps, Exchanged ps ∧ olds ps = markup ∧
      news ps = ((Stretch.float markup line).passage n flattened t).text := by
  obtain ⟨ps, exchanged, old, new⟩ := exists_pieces_exchange hn names (Nat.zero_le _) le_rfl rfl bare
    (fun c => { Reference.ofCommand markup c with line }) fun _ => rfl
  exact ⟨ps, exchanged, old.trans (Text.slice_self markup), by rw [new, text_float]⟩

/-- Wherever these pieces end a text, they are what lies from `last` on, with lone figures for the blocks. -/
def Lays (t : Text) (o : Outline) (last : Nat) (bs : List Block) (ps : List Piece) : Prop :=
  ∀ (t' : Text) (last' : Nat) (places : Nat → Nat → Prop), t'.slice ⟨last', t'.length⟩ = news ps →
    last' + (news ps).length = t'.length → (∀ i i', At ps last last' i i' → places i i') →
      Laid t o t' places last last' bs

theorem Lays.gap {ps : List Piece} (exchanged : Exchanged ps) (old : olds ps = t.slice ⟨last, t.length⟩)
    (le : last ≤ t.length) : Lays t o last [] ps := by
  refine fun t' last' places slice length at_ => .gap ⟨ps, ⟨exchanged, old.symm, slice, ?_, length.symm⟩, at_⟩
  rw [old]
  simp
  omega

/-- A gap, the figure for the block after it, and what comes then. -/
theorem Lays.float {b : Block} {bs : List Block} {e : Environment} {markup id : Text} {c f m : Command}
    {ps qs rs : List Piece} (reads : b.Reads t o e) (name : b.name.id? = some id) (slash : '\\' ∉ id)
    (lone : Figure.Lone markup ⟨0, markup.length⟩ id c f m) (exchanged : Exchanged ps)
    (old : olds ps = t.slice ⟨last, b.span.start⟩) (le : last ≤ b.span.start)
    (closed : ∀ names ∈ searches, (Command.inSpan t ⟨last, b.span.start⟩ names).stopped = none)
    (exchanged' : Exchanged qs) (old' : olds qs = markup) (later : Lays t o b.span.stop bs rs) :
    Lays t o last (b :: bs) (ps ++ ⟨t.slice b.span, news qs⟩ :: rs) := by
  intro t' last' places slice length at_
  have lt := reads.start_lt_stop
  have stop : b.span.stop ≤ t.length := reads.span ▸ reads.lies.stop_le
  rw [slice_eq_drop, news_append, news_cons] at slice
  obtain ⟨before, figure, rest⟩ := slices_of_drop slice
  obtain ⟨c', f', m', lone'⟩ := lone.exists_of_spell
    ⟨exchanged', by rw [slice_self, old'], figure, by simp [old'], rfl⟩ slash
  refine .float reads name ⟨ps, ⟨exchanged, old.symm, before, ?_, rfl⟩, fun i i' hi => at_ i i' (hi.extend _)⟩
    closed lone' (later t' _ places ((slice_eq_drop _ _).trans rest) ?_ fun i i' hi => at_ i i' ?_)
  · rw [old]
    simp
    omega
  · rw [← length]
    simp [Nat.add_assoc]
  · rw [List.append_cons]
    apply At.prepend
    have past : last + (olds (ps ++ [⟨t.slice b.span, news qs⟩])).length = b.span.stop := by
      simp [old]
      omega
    have past' : last' + (news (ps ++ [⟨t.slice b.span, news qs⟩])).length =
        last' + (news ps).length + (news qs).length := by simp [Nat.add_assoc]
    rwa [past, past']

/-- The pieces of a flattening from a place on. -/
theorem exists_pieces_laid (hn : n.Sound) (names : ∀ name ∈ flattened, ∀ c ∈ name, isInner c)
    (free : escapes (t.take last) = false) (shown : ∀ c ∈ chosen, Shown t o c)
    (even : ∀ s, .gap s ∈ stretches t last chosen → Even n flattened t s) :
    ∃ ps, Solid ps ∧ olds ps = t.slice ⟨last, t.length⟩ ∧
      news ps = (stretches t last chosen).flatMap (fun s => (s.passage n flattened t).text) ∧
        Lays t o last (chosen.map Prod.fst) ps := by
  induction chosen generalizing last with
  | nil =>
    have even := even ⟨last, t.length⟩ (by simp [stretches])
    obtain ⟨ps, exchanged, old, new⟩ := even.exists_pieces hn names free
    exact ⟨ps, exchanged.solid, old, by simpa [stretches] using new, .gap exchanged old even.fits.1⟩
  | cons c chosen ih =>
    obtain ⟨b, markup⟩ := c
    simp only [List.forall_mem_cons] at shown
    obtain ⟨⟨⟨e, reads⟩, ⟨id, name, slash, c, f, m, lone⟩, bare⟩, shown⟩ := shown
    dsimp only at reads name lone bare
    have here := even ⟨last, b.span.start⟩ (by simp [stretches])
    have le : last ≤ b.span.start := here.fits.1
    have lt := reads.start_lt_stop
    have stop : b.span.stop ≤ t.length := reads.span ▸ reads.lies.stop_le
    obtain ⟨ps, exchanged, old, new⟩ := here.exists_pieces hn names free
    obtain ⟨qs, exchanged', old', new'⟩ := exists_pieces_float bare hn names t b.line
    obtain ⟨rs, solid, old'', new'', later⟩ := ih reads.escapes_stop shown fun s hs => even s (by simp [stretches, hs])
    refine ⟨ps ++ ⟨t.slice b.span, news qs⟩ :: rs, ?_, ?_, by simp [stretches, new, new', new''],
      .float reads name slash lone exchanged old le here.closed exchanged' old' later⟩
    · refine List.forall_mem_append.2 ⟨exchanged.solid, List.forall_mem_cons.2 ⟨⟨?_, ?_⟩, solid⟩⟩
      · rw [← List.length_pos_iff, length_slice]
        omega
      · have pos : 0 < markup.length := lone.start_lt_stop
        rw [← old'] at pos
        have none := exchanged'.solid.length_eq_zero
        show news qs ≠ []
        rw [← List.length_pos_iff]
        omega
    · rw [olds_append, olds_cons, old, old'', show t.slice b.span = t.slice ⟨b.span.start, b.span.stop⟩ from rfl,
        slice_append t lt.le stop le_rfl, slice_append t le (lt.le.trans stop) le_rfl]

end FloatFlattening.Flattened
