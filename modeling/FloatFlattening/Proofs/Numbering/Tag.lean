import FloatFlattening.Proofs.Numbering.Consistent
/-!
Which labels of a numbering have the same tag, when further names are only for labels that are no
further names themselves: those that name the same thing.
-/

namespace FloatFlattening.Numbering

variable {n : Numbering} {l l' : Label}

/-- Panels and further names refer to labels that are no further names. -/
structure Flat (n : Numbering) : Prop where
  target : ∀ l ∈ n.labels, ∀ id, l.aliasOf = some id → ∃ l' ∈ n.labels, l'.id = id ∧ l'.aliasOf = none
  parent : ∀ l ∈ n.labels, l.kind = .panel → l.aliasOf = none →
    ∃ f ∈ n.labels, l.parent = some f.id ∧ f.aliasOf = none

namespace Consistent

theorem eq_of_id (c : n.Consistent) (hl : l ∈ n.labels) (hl' : l' ∈ n.labels) (id : l.id = l'.id) :
    l = l' :=
  List.inj_on_of_nodup_map c.nodup hl hl' id

theorem resolve? (c : n.Consistent) (hl : l ∈ n.labels) : n.resolve? l.id = some l.tag := by
  rw [Numbering.resolve?, (c.get? l.id l).2 ⟨hl, rfl⟩]
  rfl

theorem exists_follows (c : n.Consistent) (hl : l ∈ n.labels) :
    ∃ before, before ⊆ n.labels ∧ l.Follows before := by
  obtain ⟨before, after, eq⟩ := List.append_of_mem hl
  refine ⟨before, ?_, c.follows before l after eq⟩
  rw [eq]
  exact List.subset_append_left _ _

/-- A further name has the tag and the parent of what it is a name for. -/
theorem further (c : n.Consistent) (hl : l ∈ n.labels) (hl' : l' ∈ n.labels)
    (target : l.aliasOf = some l'.id) : l.tag = l'.tag ∧ l.parent = l'.parent := by
  obtain ⟨before, sub, follows⟩ := c.exists_follows hl
  obtain ⟨k, hk, id, tag, parent⟩ := follows.target l'.id target
  obtain rfl := c.eq_of_id (sub hk) hl' id
  exact ⟨tag, parent⟩

theorem panel (c : n.Consistent) (flat : n.Flat) (hl : l ∈ n.labels) (panel : l.kind = .panel)
    (own : l.aliasOf = none) :
    ∃ f ∈ n.own .figure, l.parent = some f.id ∧ l.index = f.index ∧ l ∈ n.children f.id := by
  obtain ⟨f, hf, parent, ownFigure⟩ := flat.parent l hl panel own
  obtain ⟨before, sub, follows⟩ := c.exists_follows hl
  obtain ⟨g, hg, parent', isFigure, index⟩ := follows.parent panel own
  have id : g.id = f.id := by
    rw [parent] at parent'
    exact (Option.some.inj parent').symm
  obtain rfl := c.eq_of_id (sub hg) hf id
  exact ⟨g, mem_own.2 ⟨hf, isFigure, ownFigure⟩, parent, index, mem_children.2 ⟨hl, panel, own, parent⟩⟩

theorem eq_of_index (c : n.Consistent) {kind : Label.Kind} (outside : kind ≠ .panel)
    (hl : l ∈ n.own kind) (hl' : l' ∈ n.own kind) (index : l.index = l'.index) : l = l' := by
  have nodup : ((n.own kind).map Label.index).Nodup := by
    rw [c.indices kind outside]
    exact List.nodup_range'
  exact List.inj_on_of_nodup_map nodup hl hl' index

theorem eq_of_letter (c : n.Consistent) {figure : Text} (hl : l ∈ n.children figure)
    (hl' : l' ∈ n.children figure) (letter : l.letter = l'.letter) : l = l' := by
  obtain ⟨xs, eq, increasing⟩ := c.letters figure
  have nodup : ((n.children figure).map Label.letter).Nodup := by
    have distinct : xs.Nodup := increasing.imp fun {x y} (lt : x < y) => Char.ne_of_lt lt
    rw [eq]
    exact distinct.map fun _ _ => Option.some.inj
  exact List.inj_on_of_nodup_map nodup hl hl' letter

/-- No two labels have one tag unless one of them is a further name. -/
theorem eq_of_tag (c : n.Consistent) (flat : n.Flat) (hl : l ∈ n.labels) (hl' : l' ∈ n.labels)
    (own : l.aliasOf = none) (own' : l'.aliasOf = none) (tag : l.tag = l'.tag) : l = l' := by
  obtain ⟨kind, index, letter⟩ := (Tag.mk.injEq ..).mp tag
  by_cases panel : l.kind = .panel
  · obtain ⟨f, hf, -, hi, child⟩ := c.panel flat hl panel own
    obtain ⟨f', hf', -, hi', child'⟩ := c.panel flat hl' (kind ▸ panel) own'
    obtain rfl := c.eq_of_index (by decide) hf hf' (by rw [← hi, ← hi', index])
    exact c.eq_of_letter child child' letter
  · exact c.eq_of_index panel (mem_own.2 ⟨hl, rfl, own⟩) (mem_own.2 ⟨hl', kind.symm, own'⟩) index

/-- The label that a label is a name for, which may be itself. -/
theorem exists_root (c : n.Consistent) (flat : n.Flat) (hl : l ∈ n.labels) :
    ∃ r ∈ n.labels, r.aliasOf = none ∧ r.tag = l.tag ∧ (l = r ∨ l.aliasOf = some r.id) := by
  cases target : l.aliasOf with
  | none => exact ⟨l, hl, target, rfl, .inl rfl⟩
  | some id =>
    obtain ⟨r, hr, rfl, own⟩ := flat.target l hl id target
    exact ⟨r, hr, own, (c.further hl hr target).1.symm, .inr rfl⟩

theorem tag_eq_iff (c : n.Consistent) (flat : n.Flat) (hl : l ∈ n.labels) (hl' : l' ∈ n.labels) :
    l.tag = l'.tag ↔ l = l' ∨ l.aliasOf = some l'.id ∨ l'.aliasOf = some l.id ∨
      ∃ target, l.aliasOf = some target ∧ l'.aliasOf = some target := by
  constructor
  · intro tag
    obtain ⟨r, hr, own, eq, name⟩ := c.exists_root flat hl
    obtain ⟨r', hr', own', eq', name'⟩ := c.exists_root flat hl'
    obtain rfl := c.eq_of_tag flat hr hr' own own' (by rw [eq, tag, eq'])
    rcases name with rfl | name <;> rcases name' with rfl | name'
    · exact .inl rfl
    · exact .inr (.inr (.inl name'))
    · exact .inr (.inl name)
    · exact .inr (.inr (.inr ⟨r.id, name, name'⟩))
  · rintro (rfl | target | target | ⟨id, target, target'⟩)
    · rfl
    · exact (c.further hl hl' target).1
    · exact (c.further hl' hl target).1.symm
    · obtain ⟨r, hr, rfl, -⟩ := flat.target l hl id target
      rw [(c.further hl hr target).1, (c.further hl' hr target').1]

end Consistent

end FloatFlattening.Numbering
