import FloatFlattening.Proofs.Numbering.Faithful
/-!
Two documents of which one registers what the other does, less some panels and further names. What it
registers has the same tag in both.
-/

namespace FloatFlattening.Numbering

variable {o o' : Outline} {n n' : Numbering} {t : Text} {l l' : Label} {kind : Label.Kind}

/-- Labels of one name have one number where the labels of their kind are named alike. -/
theorem Consistent.index_eq (c : n.Consistent) (c' : n'.Consistent) (outside : kind ≠ .panel)
    (same : (n'.own kind).map Label.id = (n.own kind).map Label.id) (hl : l ∈ n.own kind)
    (hl' : l' ∈ n'.own kind) (id : l.id = l'.id) : l.index = l'.index := by
  have length : (n'.own kind).length = (n.own kind).length := by simpa using congrArg List.length same
  have indices : (n'.own kind).map Label.index = (n.own kind).map Label.index := by
    rw [c.indices kind outside, c'.indices kind outside, length]
  obtain ⟨i, hi⟩ := List.mem_iff_getElem?.1 hl'
  have named := congrArg (·[i]?) same
  have counted := congrArg (·[i]?) indices
  simp only [List.getElem?_map, hi, Option.map_some] at named counted
  obtain ⟨k, hk, eq⟩ := Option.map_eq_some_iff.1 named.symm
  obtain rfl : l = k := c.eq_of_id (mem_own.1 hl).1 (mem_own.1 (List.mem_of_getElem? hk)).1 (id.trans eq.symm)
  simpa [hk] using counted.symm

/-- A registered label of another document is registered as it is there. -/
theorem Registers.exists_entry_eq (h : n.Registers o) (h' : n'.Registers o') (sub : o'.entries ⊆ o.entries)
    (hl' : l' ∈ n'.labels) : ∃ l ∈ n.labels, l.entry = l'.entry := by
  have mem : l'.entry ∈ n.entries := by
    rw [h.entries]
    apply sub
    rw [← h'.entries]
    exact List.mem_map_of_mem hl'
  exact List.mem_map.1 mem

theorem Registers.exists_tag_eq (h : n.Registers o) (h' : n'.Registers o') (c : n.Consistent)
    (c' : n'.Consistent) (sub : o'.entries ⊆ o.entries)
    (same : ∀ kind ≠ .panel, (n'.own kind).map Label.id = (n.own kind).map Label.id)
    (before after : List Label) (eq : n'.labels = before ++ l' :: after) :
    ∃ l ∈ n.labels, l.id = l'.id ∧ l.tag = l'.tag := by
  -- What a label refers to comes before it.
  induction k : before.length using Nat.strong_induction_on generalizing before l' after with
  | _ k ih =>
    subst k
    have hl' : l' ∈ n'.labels := by simp [eq]
    have earlier {k' : Label} (hk : k' ∈ before) : ∃ k ∈ n.labels, k.id = k'.id ∧ k.tag = k'.tag := by
      obtain ⟨first, rest, rfl⟩ := List.append_of_mem hk
      exact ih first.length (by simp) first (rest ++ l' :: after) (by simp [eq]) rfl
    obtain ⟨l, hl, entry⟩ := h.exists_entry_eq h' sub hl'
    obtain ⟨before', sub', follows⟩ := c.exists_follows hl
    have follows' := c'.follows before l' after eq
    refine ⟨l, hl, by rw [← Label.id_entry, entry, Label.id_entry], ?_⟩
    cases target : l'.aliasOf with
    | some id =>
      obtain ⟨further, -⟩ := Label.entry_eq_further_iff.1
        (entry.trans (Label.entry_eq_further_iff.2 ⟨target, rfl⟩))
      obtain ⟨k, hk, rfl, tag, -⟩ := follows.target id further
      obtain ⟨k', hk', id', tag', -⟩ := follows'.target k.id target
      obtain ⟨k₁, hk₁, id₁, tag₁⟩ := earlier hk'
      obtain rfl := c.eq_of_id (sub' hk) hk₁ (id'.symm.trans id₁.symm)
      rw [tag, tag', tag₁]
    | none =>
      obtain ⟨own, id, kind, parent, letter⟩ := Label.entry_eq_own_iff.1
        (entry.trans (Label.entry_eq_own_iff.2 ⟨target, rfl, rfl, rfl, rfl⟩))
      have index : l.index = l'.index := by
        by_cases panel : l'.kind = .panel
        · obtain ⟨f, hf, name, -, index⟩ := follows.parent (kind.trans panel) own
          obtain ⟨f', hf', name', -, index'⟩ := follows'.parent panel target
          obtain ⟨g, hg, same, tag⟩ := earlier hf'
          have name : f.id = f'.id := by
            rw [parent, name'] at name
            exact (Option.some.inj name).symm
          obtain rfl := c.eq_of_id (sub' hf) hg (name.trans same.symm)
          rw [index, index']
          exact ((Tag.mk.injEq ..).mp tag).2.1
        · exact c.index_eq c' panel (same _ panel) (mem_own.2 ⟨hl, kind, own⟩) (mem_own.2 ⟨hl', rfl, target⟩) id
      rw [Label.tag, Label.tag, kind, index, letter]

theorem Registers.resolve?_eq (h : n.Registers o) (h' : n'.Registers o') (c : n.Consistent)
    (c' : n'.Consistent) (sub : o'.entries ⊆ o.entries)
    (same : ∀ kind ≠ .panel, (n'.own kind).map Label.id = (n.own kind).map Label.id) {id : Text}
    (mem : id ∈ n'.ids) : id ∈ n.ids ∧ n'.resolve? id = n.resolve? id := by
  obtain ⟨l', hl', rfl⟩ := List.mem_map.1 mem
  obtain ⟨before, after, eq⟩ := List.append_of_mem hl'
  obtain ⟨l, hl, id, tag⟩ := h.exists_tag_eq h' c c' sub same before after eq
  exact ⟨id ▸ List.mem_map_of_mem hl, by rw [c'.resolve? hl', ← id, c.resolve? hl, tag]⟩

/-- A document is numbered where no label is there twice and no figure has too many panels. -/
theorem exists_ofOutline (reads : o.Reads t) (apart : o.MarksApart)
    (nodup : (o.entries.map Label.Entry.id).Nodup) (seated : ∀ s ∈ o.sites, ¬ s.Overfull) :
    ∃ n, ofOutline o = .ok n := by
  have outcome := outcome_ofOutline o
  rw [ofOutline_eq]
  generalize (o.sites.forM (visit o)).run empty = r at outcome
  cases outcome with
  | grown => exact ⟨_, rfl⟩
  | duplicate _ twice => exact absurd nodup twice
  | outOfLetters _ full =>
    obtain ⟨s, hs, full⟩ := full
    exact absurd full (seated s hs)
  | lost lost =>
    obtain ⟨earlier, s, later, eq, lost⟩ := lost
    exact absurd lost (reads.not_lost apart eq)

end FloatFlattening.Numbering
