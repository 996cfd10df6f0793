import FloatFlattening.Proofs.Markup.Pair
import FloatFlattening.Proofs.Text
/-!
Corresponding parts of two texts: a part whose references alone are exchanged. A search for other
commands finds in it what it finds in the part that stands for it.
-/

namespace FloatFlattening

theorem Text.slice_middle {t x y z : Text} {a b : Nat} (h : t.slice ⟨a, b⟩ = x ++ (y ++ z))
    (stop : b = a + (x ++ (y ++ z)).length) :
    t.slice ⟨a + x.length, a + x.length + y.length⟩ = y := by
  have length : (x ++ (y ++ z)).length = x.length + (y.length + z.length) := by simp
  rw [stop, length, slice_eq_take] at h
  calc
    _ = (((t.drop a).take (x.length + (y.length + z.length))).drop x.length).take y.length := by
      rw [slice_eq_take, List.drop_take, List.take_take, List.drop_drop]
      congr 1
      omega
    _ = y := by rw [h, List.drop_left, List.take_left]

namespace Piece

variable {ps : List Piece} {t t' : Text} {s s' : Span} {pos pos' i i' j j' : Nat} {names : List Text}
  {places : Nat → Nat → Prop}

theorem At.exists_between (solid : Solid ps) (h : At ps pos pos' i i') (k : At ps pos pos' j j') (le : i ≤ j) :
    ∃ before mid after, ps = before ++ (mid ++ after) ∧ i = pos + (olds before).length ∧
      i' = pos' + (news before).length ∧ j = i + (olds mid).length ∧ j' = i' + (news mid).length := by
  obtain ⟨before, rest, rfl⟩ := h
  obtain ⟨before', rest', eq⟩ := k
  rcases List.append_eq_append_iff.1 eq with ⟨mid, rfl, rfl⟩ | ⟨mid, rfl, rfl⟩
  · refine ⟨before, mid, rest', rfl, rfl, rfl, ?_, ?_⟩ <;> simp [Nat.add_assoc]
  · cases mid with
    | nil => exact ⟨before', [], rest, by simp, by simp, by simp, by simp, by simp⟩
    | cons p mid =>
      have := List.length_pos_iff.2 (solid p (by simp)).1
      simp only [olds_append, olds_cons, List.length_append] at le
      omega

/-- Pieces that make up a part of a text and the part that stands for it in another. -/
structure Spell (t t' : Text) (s s' : Span) (ps : List Piece) : Prop where
  exchanged : Exchanged ps
  old : t.slice s = olds ps
  new : t'.slice s' = news ps
  stop : s.stop = s.start + (olds ps).length
  stop' : s'.stop = s'.start + (news ps).length

namespace Spell

theorem matches_inSpan (h : Spell t t' s s' ps) (names : List Text)
    (other : ∀ w ∈ Reference.commandNames, w ∉ names) :
    (Command.inSpan t s names).Matches (Command.Matches (At ps s.start s'.start))
      (Command.inSpan t' s' names) := by
  rw [Command.inSpan, Command.inSpan, h.old, h.new]
  exact h.exchanged.matches_scan other _ _

theorem exists_between (h : Spell t t' s s' ps) (hi : At ps s.start s'.start i i')
    (hj : At ps s.start s'.start j j') (le : i ≤ j) :
    ∃ mid, Spell t t' ⟨i, j⟩ ⟨i', j'⟩ mid ∧ ∀ k k', At mid i i' k k' → At ps s.start s'.start k k' := by
  obtain ⟨before, mid, after, eq, rfl, rfl, rfl, rfl⟩ := hi.exists_between h.exchanged.solid hj le
  have old := h.old
  have new := h.new
  have stop := h.stop
  have stop' := h.stop'
  have exchanged := h.exchanged
  rw [eq] at old new stop stop' exchanged
  simp only [olds_append, news_append] at old new stop stop'
  refine ⟨mid, ⟨exchanged.right.left, Text.slice_middle old stop, Text.slice_middle new stop', rfl, rfl⟩, ?_⟩
  intro k k' hk
  rw [eq]
  exact (hk.extend after).prepend

end Spell

end Piece

/-- A part of a text that stands in another as it was, but for its references. -/
def Span.Kept (t t' : Text) (places : Nat → Nat → Prop) (s s' : Span) : Prop :=
  ∃ ps, Piece.Spell t t' s s' ps ∧ ∀ i i', Piece.At ps s.start s'.start i i' → places i i'

namespace Span.Kept

variable {t t' : Text} {s s' : Span} {names : List Text} {places : Nat → Nat → Prop}

theorem matches_commands (h : Kept t t' places s s') (names : List Text)
    (other : ∀ w ∈ Reference.commandNames, w ∉ names) :
    (Command.inSpan t s names).Matches (Command.Matches places) (Command.inSpan t' s' names) := by
  obtain ⟨ps, spell, at_⟩ := h
  exact (spell.matches_inSpan names other).imp fun c c' hc => hc.imp at_

theorem matches_environments (h : Kept t t' places s s') (hn : ∀ name ∈ names, '\\' ∉ name) :
    (Environment.inSpan t s names).Matches (Environment.Matches places) (Environment.inSpan t' s' names) := by
  have delimiters := h.matches_commands ["begin", "end"] (by decide)
  exact Environment.matches_pair delimiters.found hn delimiters.stopped

theorem start (h : Kept t t' places s s') : places s.start s'.start := by
  obtain ⟨ps, spell, at_⟩ := h
  exact at_ _ _ (.start ps _ _)

theorem stop (h : Kept t t' places s s') : places s.stop s'.stop := by
  obtain ⟨ps, spell, at_⟩ := h
  rw [spell.stop, spell.stop']
  exact at_ _ _ (.stop ps _ _)

theorem start_le_stop (h : Kept t t' places s s') : s.start ≤ s.stop ∧ s'.start ≤ s'.stop := by
  obtain ⟨ps, spell, -⟩ := h
  have := spell.stop
  have := spell.stop'
  omega

theorem escapes_eq (h : Kept t t' places s s') : Text.escapes (t.slice s) = Text.escapes (t'.slice s') := by
  obtain ⟨ps, spell, -⟩ := h
  rw [spell.old, spell.new, spell.exchanged.escapes_eq]

end Span.Kept

/-- An environment that stands in another text as it was, but for its references. -/
structure Environment.Kept (t t' : Text) (places : Nat → Nat → Prop) (e e' : Environment) : Prop where
  stands : e.Matches places e'
  body : e.body.Kept t t' places e'.body

theorem Span.Kept.environments {t t' : Text} {s s' : Span} {names : List Text} {places : Nat → Nat → Prop}
    (h : s.Kept t t' places s') (hn : ∀ name ∈ names, '\\' ∉ name) :
    (Environment.inSpan t s names).Matches (Environment.Kept t t' places) (Environment.inSpan t' s' names) := by
  obtain ⟨ps, spell, at_⟩ := h
  have within : s.Kept t t' (Piece.At ps s.start s'.start) s' := ⟨ps, spell, fun _ _ hi => hi⟩
  have both := within.matches_environments hn
  have ordered : ∀ e ∈ (Environment.inSpan t s names).found, e.body.start ≤ e.body.stop :=
    fun e he => Environment.body_le_of_mem_inSpan he
  refine ⟨((List.forall₂_and_left _ _).2 ⟨ordered, both.found⟩).imp fun e e' he => ⟨he.2.imp at_, ?_⟩, both.stopped⟩
  obtain ⟨mid, body, sub⟩ := spell.exists_between he.2.bodyStart he.2.bodyStop he.1
  exact ⟨mid, body, fun i i' hi => at_ i i' (sub i i' hi)⟩

end FloatFlattening
