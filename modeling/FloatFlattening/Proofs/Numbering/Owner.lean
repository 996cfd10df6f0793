import FloatFlattening.Proofs.Numbering.Total
/-!
The labels that floats own. A figure owns its name, and a table its first label, if that is a label
of the document. Where no label is registered twice, none has two owners.
-/

namespace FloatFlattening

namespace Outline

variable {t name : Text} {o : Outline} {span span' : Span} {m first : Mark} {f : Figure}
  {table : Table}

theorem figure_mem_sites (hf : f ∈ o.figures) : .figure f ∈ o.sites :=
  (Site.perm_merge o.figures o.marks).mem_iff.2 (by simp [hf])

theorem mark_mem_sites (hm : m ∈ o.marks) : .mark m ∈ o.sites :=
  (Site.perm_merge o.figures o.marks).mem_iff.2 (by simp [hm])

theorem mem_entries {s : Site} {e : Label.Entry} (hs : s ∈ o.sites) (he : e ∈ s.entries o) :
    e ∈ o.entries :=
  List.mem_flatMap.2 ⟨s, hs, he⟩

/-- Labels registered at different sites are different. -/
theorem eq_site (nodup : (o.entries.map Label.Entry.id).Nodup) {s s' : Site} {e : Label.Entry}
    (hs : s ∈ o.sites) (hs' : s' ∈ o.sites) (he : e ∈ s.entries o) (he' : e ∈ s'.entries o) :
    s = s' := by
  have apart := (List.nodup_flatMap.1 nodup.of_map).2
  refine List.Pairwise.forall_of_forall_of_flip (R := fun s s' : Site =>
    e ∈ s.entries o → e ∈ s'.entries o → s = s') (fun s _ _ _ => rfl) ?_ ?_ hs hs' he he'
  · exact apart.imp fun disjoint he he' => (disjoint he he').elim
  · exact apart.imp fun disjoint he he' => (disjoint he' he).elim

theorem eq_entry (nodup : (o.entries.map Label.Entry.id).Nodup) {e e' : Label.Entry}
    (he : e ∈ o.entries) (he' : e' ∈ o.entries) (id : e.id = e'.id) : e = e' :=
  List.inj_on_of_nodup_map nodup he he' id

/-- No figure overlaps a table. -/
def FloatsApart (o : Outline) : Prop :=
  ∀ f ∈ o.figures, ∀ table ∈ o.tables,
    f.span.stop ≤ table.span.start ∨ table.span.stop ≤ f.span.start

instance (o : Outline) : Decidable o.FloatsApart :=
  inferInstanceAs (Decidable (∀ f ∈ o.figures, ∀ table ∈ o.tables, _))

/-- The first label in a table is one of the document, not just one in the argument of another. -/
def TablesNamed (o : Outline) : Prop :=
  ∀ table ∈ o.tables, ∀ first ∈ table.marks.head?, first ∈ o.marks

instance (o : Outline) : Decidable o.TablesNamed :=
  inferInstanceAs (Decidable (∀ table ∈ o.tables, ∀ first ∈ table.marks.head?, _))

/-- The float with a span owns a label. -/
inductive Owns (o : Outline) : Span → Text → Prop
  | figure {name : Text} (f : Figure) (mem : f ∈ o.figures) (hn : f.name.id? = some name) :
      Owns o f.span name
  | table {first : Mark} (table : Table) (mem : table ∈ o.tables)
      (head : table.marks.head? = some first) (first_mem : first ∈ o.marks) :
      Owns o table.span first.id

namespace Reads

theorem eq_of_id (h : Reads t o) (nodup : (o.entries.map Label.Entry.id).Nodup) {m' : Mark}
    (hm : m ∈ o.marks) (hm' : m' ∈ o.marks) (id : m.id = m'.id) : m = m' := by
  obtain ⟨s, hs, mem, place⟩ := h.exists_site hm
  obtain ⟨s', hs', mem', place'⟩ := h.exists_site hm'
  obtain ⟨e, he, eq⟩ := List.mem_map.1 mem
  obtain ⟨e', he', eq'⟩ := List.mem_map.1 mem'
  obtain rfl := eq_entry nodup (mem_entries hs he) (mem_entries hs' he') (eq.trans (id.trans eq'.symm))
  obtain rfl := eq_site nodup hs hs' he he'
  rcases place with rfl | ⟨f, hf, rfl, -, visited⟩
  · rcases place' with eq | ⟨f, -, eq, -⟩
    · exact Site.mark.inj eq
    · cases eq
  · rcases place' with eq | ⟨f', -, eq, -, visited'⟩
    · cases eq
    · obtain rfl := Site.figure.inj eq
      rw [entries, List.map_flatMap] at nodup
      have ids := (List.nodup_flatMap.1 nodup).1 _ hs
      rw [Site.entries, (h.called f hf).map_id_entries] at ids
      exact List.inj_on_of_nodup_map ids.of_append_right visited visited' id

theorem figureAt?_eq_none (h : Reads t o) (apart : o.FloatsApart) (ht : table ∈ o.tables)
    {pos : Nat} (holds : table.span.Holds pos) : o.figureAt? pos = none := by
  cases hf : o.figureAt? pos with
  | none => rfl
  | some f =>
    obtain ⟨mem, holds'⟩ := h.figureAt?_eq_some_iff.1 hf
    have := holds.1
    have := holds.2
    have := holds'.1
    have := holds'.2
    rcases apart f mem table ht with before | after <;> omega

/-- Where a table's own mark stands. -/
theorem holds_of_mem_table (h : Reads t o) (ht : table ∈ o.tables) (hm : m ∈ table.marks) :
    table.span.Holds m.span.start := by
  obtain ⟨e, lies, reads⟩ := h.exists_table ht
  rw [reads.marks] at hm
  rw [reads.span]
  exact lies.holds_span (Mark.holds_of_mem_inSpan hm)

theorem own_figure_mem (o : Outline) (hn : f.name.id? = some name) :
    .own name .figure none none ∈ (Site.figure f).entries o := by
  simp [Site.entries, Figure.entries, hn]

theorem own_table_mem (h : Reads t o) (apart : o.FloatsApart) (ht : table ∈ o.tables)
    (head : table.marks.head? = some first) :
    .own first.id .table none none ∈ (Site.mark first).entries o := by
  have holds := h.holds_of_mem_table ht (List.mem_of_head? head)
  have at_ := h.tableAt?_eq_some_iff.2 ⟨ht, holds⟩
  simp [Site.entries, entriesOfMark, h.figureAt?_eq_none apart ht holds, at_, head, Option.filter]

/-- A label that a float owns is registered, and not for a panel. -/
theorem entry_of_owns (h : Reads t o) (apart : o.FloatsApart) (owns : o.Owns span name) :
    ∃ kind, kind ≠ .panel ∧ .own name kind none none ∈ o.entries := by
  cases owns with
  | figure f mem hn =>
    exact ⟨.figure, by decide, mem_entries (figure_mem_sites mem) (own_figure_mem o hn)⟩
  | table table mem head first_mem =>
    exact ⟨.table, by decide, mem_entries (mark_mem_sites first_mem) (h.own_table_mem apart mem head)⟩

theorem eq_of_owns (h : Reads t o) (apart : o.FloatsApart)
    (nodup : (o.entries.map Label.Entry.id).Nodup) (owns : o.Owns span name)
    (owns' : o.Owns span' name) : span = span' := by
  cases owns with
  | figure f mem hn =>
    have site := figure_mem_sites mem
    have entry := own_figure_mem o hn
    cases owns' with
    | figure g mem' hn' =>
      cases eq_site nodup site (figure_mem_sites mem') entry (own_figure_mem o hn')
      rfl
    | table table mem' head first_mem =>
      cases eq_entry nodup (mem_entries site entry)
        (mem_entries (mark_mem_sites first_mem) (h.own_table_mem apart mem' head)) rfl
  | @table first table mem head first_mem =>
    have site := mark_mem_sites first_mem
    have entry := h.own_table_mem apart mem head
    generalize hid : first.id = name at owns' entry
    cases owns' with
    | figure f mem' hn =>
      cases eq_entry nodup (mem_entries site entry)
        (mem_entries (figure_mem_sites mem') (own_figure_mem o hn)) rfl
    | @table first' table' mem' head' first_mem' =>
      have entry' := h.own_table_mem apart mem' head'
      cases eq_site nodup site (mark_mem_sites first_mem') entry entry'
      have holds := h.holds_of_mem_table mem (List.mem_of_head? head)
      have holds' := h.holds_of_mem_table mem' (List.mem_of_head? head')
      rw [eq_of_holds h.pairwise_tables mem mem' holds holds']

end Reads

end Outline

namespace Numbering.Registers

variable {o : Outline} {n : Numbering} {f : Figure} {p : Text}

theorem mem_of_site (h : n.Registers o) {s : Site} {e : Label.Entry} (hs : s ∈ o.sites)
    (he : e ∈ s.entries o) : e ∈ n.entries :=
  h.entries ▸ Outline.mem_entries hs he

theorem eq_entry (h : n.Registers o) {e e' : Label.Entry} (he : e ∈ n.entries) (he' : e' ∈ n.entries)
    (id : e.id = e'.id) : e = e' := by
  rw [h.entries] at he he'
  exact Outline.eq_entry h.nodup he he' id

theorem exists_letter (h : n.Registers o) {i : Nat} {q : Panel} (hf : f ∈ o.figures)
    (hid : f.name.id? = some p) (hi : f.panels[i]? = some q) :
    ∃ letter, Panel.letter? i = some letter := by
  refine Option.ne_none_iff_exists'.1 fun none => ?_
  have full := Panel.letter?_eq_none_iff.1 none
  have seated := h.seated (.figure f) (Outline.figure_mem_sites hf)
  obtain ⟨lt, -⟩ := List.getElem?_eq_some_iff.1 hi
  exact seated ⟨by simp [hid], Nat.lt_of_le_of_lt full lt⟩

end Numbering.Registers

end FloatFlattening
