import FloatFlattening.Proofs.Flattening.Visit
import FloatFlattening.Proofs.Numbering.Faithful
/-!
What a name stands for in the end. A further name is for a label registered before it, so that every
way from label to label ends. The names of figures and panels are no further names, and the first
label of a table is at most a further name for one of these, which makes two links. A way is longer
only by tables whose first label is none of the document: it can have the id of any label.
-/

namespace FloatFlattening

open Numbering

namespace Numbering

/-- So many links from one label to another, each from a further name to the label it is for. -/
inductive Links (n : Numbering) : Nat → Label → Label → Prop
  | refl {l : Label} : Links n 0 l l
  | cons {k : Nat} {l l' root : Label} {target : Text} (further : l.aliasOf = some target)
      (found : n.get? target = some l') (rest : Links n k l' root) : Links n (k + 1) l root

variable {n : Numbering} {l l' root : Label} {id target : Text} {j k count most : Nat}

namespace Links

theorem split (h : n.Links (j + k) l root) : ∃ l', n.Links j l l' ∧ n.Links k l' root := by
  induction j generalizing l with
  | zero => exact ⟨l, .refl, by rwa [Nat.zero_add] at h⟩
  | succ j ih =>
    rw [Nat.add_right_comm] at h
    cases h with
    | cons further found rest =>
      obtain ⟨l', first, last⟩ := ih rest
      exact ⟨l', .cons further found first, last⟩

theorem follow_add (h : n.Links k l l') (count : Nat) :
    n.follow (k + count) l = n.follow count l' := by
  induction h with
  | refl => rw [Nat.zero_add]
  | cons further found rest ih => rw [Nat.add_right_comm, follow_succ further found, ih]

theorem follow_eq (h : n.Links k l l') : n.follow k l = l' := h.follow_add 0

/-- A way is followed to its end or for as many links as are counted. -/
theorem follow_min (h : n.Links k l root) (own : root.aliasOf = none) (count : Nat) :
    n.Links (min k count) l (n.follow count l) := by
  rcases Nat.le_total k count with le | le
  · obtain ⟨rest, rfl⟩ := Nat.exists_eq_add_of_le le
    rw [h.follow_add, follow_own rest own, Nat.min_eq_left le]
    exact h
  · obtain ⟨rest, rfl⟩ := Nat.exists_eq_add_of_le le
    obtain ⟨l', first, -⟩ := h.split
    rw [first.follow_eq, Nat.min_eq_right le]
    exact first

theorem follow_eq_iff (h : n.Links k l root) (own : root.aliasOf = none) :
    n.follow count l = root ↔ k ≤ count := by
  constructor
  · intro eq
    by_contra short
    obtain ⟨rest, rfl⟩ := Nat.exists_eq_add_of_lt (Nat.lt_of_not_le short)
    obtain ⟨l', first, last⟩ := split (j := count) (k := rest + 1) h
    rw [first.follow_eq] at eq
    subst eq
    cases last with
    | cons further => simp [own] at further
  · intro le
    obtain ⟨rest, rfl⟩ := Nat.exists_eq_add_of_le le
    rw [h.follow_add, follow_own rest own]

/-- Along a way all labels say the same. -/
theorem same (h : n.Links k l root) (c : n.Consistent) (hl : l ∈ n.labels) :
    root ∈ n.labels ∧ root.tag = l.tag ∧ root.parent = l.parent := by
  induction h with
  | refl => exact ⟨hl, rfl, rfl⟩
  | cons further found rest ih =>
    obtain ⟨mem, rfl⟩ := mem_of_get? found
    obtain ⟨hroot, tag, parent⟩ := ih mem
    obtain ⟨tag', parent'⟩ := c.further hl mem further
    exact ⟨hroot, tag.trans tag'.symm, parent.trans parent'.symm⟩

end Links

theorem Consistent.new (c : n.Consistent) {before after : List Label}
    (eq : n.labels = before ++ l :: after) : l.id ∉ before.map Label.id := by
  have nodup := c.nodup
  rw [ids, eq, List.map_append, List.nodup_append] at nodup
  exact fun mem => nodup.2.2 l.id mem l.id (by simp) rfl

/-- At most so many links from the label with an id to one that is no further name. -/
def EndsIn (n : Numbering) (id : Text) (most : Nat) : Prop :=
  ∃ l, n.get? id = some l ∧ ∃ k root, n.Links k l root ∧ root.aliasOf = none ∧ k ≤ most

theorem Sound.endsIn_own (hn : n.Sound) {kind : Label.Kind} {parent : Option Text}
    {letter : Option Char} (h : .own id kind parent letter ∈ n.entries) : n.EndsIn id most := by
  obtain ⟨l, get, own, -⟩ := hn.exists_own h
  exact ⟨l, get, 0, l, .refl, own, Nat.zero_le most⟩

theorem Sound.endsIn_further (hn : n.Sound) (h : .further id target ∈ n.entries)
    (ends : n.EndsIn target most) : n.EndsIn id (most + 1) := by
  obtain ⟨l, get, further⟩ := hn.exists_further h
  obtain ⟨l', found, k, root, links, own, le⟩ := ends
  exact ⟨l, get, k + 1, root, .cons further found links, own, Nat.succ_le_succ le⟩

end Numbering

namespace Outline

variable {t id target : Text} {o : Outline} {n : Numbering} {table : Table} {first : Mark}

/-- The first labels of tables that are none of the document, but stand in the argument of another. -/
def strays (o : Outline) : List Mark :=
  (o.tables.filterMap fun table => table.marks.head?).filter (· ∉ o.marks)

theorem mem_strays : first ∈ o.strays ↔
    (∃ table ∈ o.tables, table.marks.head? = some first) ∧ first ∉ o.marks := by
  simp [strays]

namespace Reads

/-- The first label of a table is the table's own or has to do with a figure. -/
theorem endsIn_first (h : Reads t o) (registers : n.Registers o) (ht : table ∈ o.tables)
    (head : table.marks.head? = some first) (hfirst : first ∈ o.marks) : n.EndsIn first.id 1 := by
  have sound := registers.sound
  obtain ⟨s, hs, mem, place⟩ := h.exists_site hfirst
  obtain ⟨e, he, id⟩ := List.mem_map.1 mem
  rw [← id]
  have entry : e ∈ n.entries := registers.mem_of_site hs he
  cases e with
  | own id kind parent letter => exact sound.endsIn_own entry
  | further id target =>
    refine sound.endsIn_further entry ?_
    rcases place with rfl | ⟨f, hf, rfl, -⟩
    · rcases h.further_of_mark he with ⟨f, hf, -, hid⟩ | ⟨table', ht', holds, first', head', ne, -⟩
      · exact sound.endsIn_own (registers.entries ▸ own_figure_mem_entries hf hid)
      · have holds' := h.holds_of_mem_table ht (List.mem_of_head? head)
        obtain rfl := eq_of_holds h.pairwise_tables ht' ht holds holds'
        rw [head] at head'
        obtain rfl := Option.some.inj head'
        exact absurd rfl ne
    · obtain ⟨kind, parent, letter, own⟩ := own_of_further_figure hf he
      exact sound.endsIn_own (registers.entries ▸ own)

/-- A further name is for a label that is near to its end, or has the id of a stray one. -/
theorem endsIn_target (h : Reads t o) (registers : n.Registers o)
    (he : .further id target ∈ n.entries) :
    n.EndsIn target 1 ∨ target ∈ o.strays.map Mark.id := by
  have sound := registers.sound
  rw [registers.entries] at he
  obtain ⟨s, hs, he⟩ := List.mem_flatMap.1 he
  rcases Site.mem_merge hs with ⟨f, hf, rfl⟩ | ⟨m, hm, rfl⟩
  · obtain ⟨kind, parent, letter, own⟩ := own_of_further_figure hf he
    exact .inl (sound.endsIn_own (registers.entries ▸ own))
  · rcases h.further_of_mark he with ⟨f, hf, -, hid⟩ | ⟨table, ht, -, first, head, -, rfl⟩
    · exact .inl (sound.endsIn_own (registers.entries ▸ own_figure_mem_entries hf hid))
    · by_cases hfirst : first ∈ o.marks
      · exact .inl (h.endsIn_first registers ht head hfirst)
      · exact .inr (List.mem_map_of_mem (mem_strays.2 ⟨⟨table, ht, head⟩, hfirst⟩))

/-- A way leads to no stray label twice, as each link leads to a label registered earlier. -/
theorem exists_links (h : Reads t o) (registers : n.Registers o) (c : n.Consistent)
    {before after : List Label} {l : Label} (eq : n.labels = before ++ l :: after) :
    ∃ k root, n.Links k l root ∧ root.aliasOf = none ∧ ∃ passed : List Text,
      passed.Nodup ∧ passed ⊆ before.map Label.id ∧ passed ⊆ o.strays.map Mark.id ∧
        k ≤ passed.length + 2 := by
  induction len : before.length using Nat.strong_induction_on generalizing before l after with
  | h _ ih =>
    have hl : l ∈ n.labels := by simp [eq]
    cases further : l.aliasOf with
    | none => exact ⟨0, l, .refl, further, [], by simp⟩
    | some target =>
      have he : .further l.id target ∈ n.entries := by
        rw [← Label.entry_eq_further_iff.2 ⟨further, rfl⟩]
        exact List.mem_map_of_mem hl
      rcases h.endsIn_target registers he with ⟨l', found, k, root, links, own, le⟩ | stray
      · exact ⟨k + 1, root, .cons further found links, own, [], by simpa using le⟩
      · -- What has the id of the stray label is registered earlier, and so is all that the way passes after it.
        obtain ⟨l', hl', rfl, -⟩ := (c.follows before l after eq).target target further
        obtain ⟨earlier, between, rfl⟩ := List.append_of_mem hl'
        have eq' : n.labels = earlier ++ l' :: (between ++ l :: after) := by simpa using eq
        have lt : earlier.length < (earlier ++ l' :: between).length := by simp
        obtain ⟨k, root, links, own, passed, nodup, sub, strays, le⟩ := ih _ (len ▸ lt) eq' rfl
        have found : n.get? l'.id = some l' := (c.get? _ _).2 ⟨by simp [eq'], rfl⟩
        refine ⟨k + 1, root, .cons further found links, own, l'.id :: passed, ?_, ?_, ?_, ?_⟩
        · exact List.nodup_cons.2 ⟨fun mem => c.new eq' (sub mem), nodup⟩
        · refine List.cons_subset.2 ⟨by simp, fun id mem => ?_⟩
          rw [List.map_append]
          exact List.mem_append_left _ (sub mem)
        · exact List.cons_subset.2 ⟨stray, strays⟩
        · simpa [Nat.add_right_comm] using le

end Reads

end Outline

namespace Numbering

variable {t : Text} {o : Outline} {n : Numbering}

/-- Every label stands for one that is no further name and says the same. It is found when at most eight
links lead to it, and so where at most six tables have a stray first label. -/
theorem ofOutline_rooted (outline : Outline.ofText t = .ok o) (numbering : ofOutline o = .ok n) :
    ∀ l ∈ n.labels, ∃ k root, n.Links k l root ∧ root.aliasOf = none ∧
      (root ∈ n.labels ∧ root.tag = l.tag ∧ root.parent = l.parent) ∧
        k ≤ o.strays.length + 2 ∧ n.Links (min k 8) l (n.rootOf l) ∧ (n.rootOf l = root ↔ k ≤ 8) := by
  intro l hl
  have reads := Outline.reads_of_ofText outline
  have registers := registers_of_ofOutline numbering
  have c := (steps_of_ofOutline numbering).consistent
  obtain ⟨before, after, eq⟩ := List.append_of_mem hl
  obtain ⟨k, root, links, own, passed, nodup, -, strays, le⟩ := reads.exists_links registers c eq
  have few : passed.length ≤ o.strays.length := by
    simpa using (nodup.subperm strays).length_le
  exact ⟨k, root, links, own, links.same c hl, by omega, links.follow_min own 8,
    links.follow_eq_iff own⟩

/-- A figure in a table, and a table that begins in the argument of a label. -/
def relayed : Text :=
  "\\begin\x7btable\x7d\\begin\x7bfigure\x7d\\label\x7ba\x7d\\label\x7bb\x7d\\end\x7bfigure\x7d" ++
    "\\label\x7bc\x7d\\end\x7btable\x7d" ++
    "\\label\x7b\\begin\x7btable\x7d\\label\x7bc\x7d\x7d\\label\x7bd\x7d\\end\x7btable\x7d"

/-- As many links as there can be with one stray label: from `d` to `c`, to `a` and to `b`. -/
theorem ofOutline_rooted_relayed : ∃ o, Outline.ofText relayed = .ok o ∧
    ∃ n, ofOutline o = .ok n ∧ o.strays.length = 1 ∧ ∃ l ∈ n.labels, ∃ root, n.Links 3 l root ∧
      root.aliasOf = none ∧ root.tag = l.tag ∧ root.parent = l.parent ∧ n.rootOf l = root := by
  have good : ∃ o, Outline.ofText relayed = .ok o ∧ ∃ n, ofOutline o = .ok n ∧
      o.strays.length = 1 ∧ ∃ l ∈ n.labels, (n.follow 2 l).aliasOf ≠ none := by decide +kernel
  obtain ⟨o, ho, n, hn, one, l, hl, further⟩ := good
  obtain ⟨k, root, links, own, ⟨-, tag, parent⟩, most, -, found⟩ := ofOutline_rooted ho hn l hl
  have least : ¬ k ≤ 2 := fun le => by
    rw [(links.follow_eq_iff own).2 le] at further
    exact further own
  obtain rfl : k = 3 := by omega
  exact ⟨o, ho, n, hn, one, l, hl, root, links, own, tag, parent, found.2 (by decide)⟩

/-- A table that begins in the argument of a label, with a further name for the label before it. -/
def relay (i : Nat) : Text :=
  "\\label\x7b\\begin\x7btable\x7d\\label\x7b" ++ Text.ofNat i ++ "\x7d\x7d\\label\x7b" ++
    Text.ofNat (i + 1) ++ "\x7d\\end\x7btable\x7d"

/-- A figure, and nine tables of which each hands its name on. -/
def handedOn : Text :=
  "\\begin\x7bfigure\x7d\\includegraphics\x7ba\x7d\\includegraphics\x7bb\x7d\\caption\x7bBoth\x7d\\label\x7b0\x7d" ++
    "\\end\x7bfigure\x7d" ++ (List.range 9).flatMap relay ++ "\\ref\x7b9\x7d"

/-- A label nine links away from the name of the figure. What is found for it is a further name itself, and a
reference to it stays when the figure is replaced. -/
theorem exists_unrooted : ∃ o, Outline.ofText handedOn = .ok o ∧ ∃ n, ofOutline o = .ok n ∧
    ∃ l ∈ n.labels, (∀ k < 8, ∀ root, n.Links k l root → root.aliasOf ≠ none) ∧
      (n.rootOf l).aliasOf ≠ none ∧ (n.follow 9 l).id = ['0'] ∧
        (Visit.of n [['0']] l.id l.line).fate = .kept := by
  have good : ∃ o, Outline.ofText handedOn = .ok o ∧ ∃ n, ofOutline o = .ok n ∧
      ∃ l ∈ n.labels, (n.rootOf l).aliasOf ≠ none ∧ (n.follow 9 l).id = ['0'] ∧
        (Visit.of n [['0']] l.id l.line).fate = .kept := by decide +kernel
  obtain ⟨o, ho, n, hn, l, hl, further, away, kept⟩ := good
  refine ⟨o, ho, n, hn, l, hl, fun k lt root links own => further ?_, further, away, kept⟩
  rw [rootOf, (links.follow_eq_iff own).2 lt.le]
  exact own

end Numbering

end FloatFlattening
