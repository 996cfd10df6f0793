import FloatFlattening.Proofs.Block
import FloatFlattening.Proofs.Disk.Copy
/-!
A scratch directory is made where nothing was. While only what is in it changes, and no links are put
there, names that go down from it lead to places in it.
-/

namespace FloatFlattening

open Disk

/-- Names go down from a root to a path. -/
structure Path.Under (root x : Text) (ns : List Text) : Prop where
  start : isAbsolute x = isAbsolute root
  names : names x = names root ++ ns
  inside : "..".toList ∉ ns

structure Scratch where
  /-- The disk before the directory is made. -/
  before : Disk
  root : Text
  place : Location
  free : ∀ below, before.entry? (place ++ below) = none
  located : before.locate false root = .ok place

namespace Disk

variable {d d' : Disk} {parent : Text}

theorem not_mem_scratchName (k : Nat) : '/' ∉ scratchName k := by
  intro mem
  rcases List.mem_append.1 mem with mem | digit
  · rcases List.mem_append.1 mem with letter | zero
    · exact absurd letter (by decide)
    · exact absurd (List.eq_of_mem_replicate zero) (by decide)
  · exact absurd (Stem.safe_ofNat k _ digit) (by decide)

theorem scratchName_ne_nil (k : Nat) : scratchName k ≠ [] :=
  List.append_ne_nil_of_left_ne_nil (List.append_ne_nil_of_left_ne_nil (by decide) _) _

theorem trimSlashes_join_scratchName (base : Text) (k : Nat) :
    trimSlashes (Path.join base (scratchName k)) = Path.join base (scratchName k) := by
  refine trimSlashes_eq_self (Path.endsWith_slash_of_last ?_)
  rw [Path.last_join _ (not_mem_scratchName k)]
  exact scratchName_ne_nil k

/-- The directory for scratch work is made under a name of its own. -/
theorem exists_freshScratch (made : d.makeDirectory (d.freshScratch parent) = .ok d') :
    ∃ k, d.freshScratch parent = Path.join parent (scratchName k) := by
  obtain ⟨l, located, vacant, -⟩ := makeDirectory_eq_ok made
  rw [freshScratch] at located ⊢
  cases found : ((List.range (d.entries.length + 1)).map scratchName).find? fun name =>
      d.isVacant (Path.join parent name) with
  | some name =>
    obtain ⟨k, -, rfl⟩ := List.mem_map.1 (List.mem_of_find?_eq_some found)
    exact ⟨k, rfl⟩
  | none =>
    -- Then the first of the names is in use, and what it is used in is there.
    simp only [found] at located
    have taken := List.find?_eq_none.1 found (scratchName 0) (List.mem_map_of_mem (by simp))
    obtain ⟨k, located', there⟩ : ∃ k, d.locate false (Path.join parent (scratchName 0)) = .ok k ∧
        d.entry? k ≠ none := by
      rw [isVacant] at taken
      split at taken
      next k located' => exact ⟨k, located', by simpa using taken⟩
      · simp at taken
    have relative := Path.isAbsolute_of_not_mem (not_mem_scratchName 0)
    obtain ⟨-, -, -, m, leads⟩ := locate_eq_ok_iff.1 located'
    obtain ⟨first, pieces, names⟩ := Path.exists_pieces_join parent relative
    rw [pieces, start_join relative, Path.pieces_of_not_mem (not_mem_scratchName 0)] at leads
    obtain ⟨n, q, above, last⟩ := leads.split (.inr (by simp))
    have above := above.leading
    obtain ⟨-, ne, -, m, leads⟩ := locate_eq_ok_iff.1 located
    have leads := (leads.follow vacant).leading
    rw [← Path.names_eq, names_trimSlashes, start,
      Path.isAbsolute_of_isPrefix (trimSlashes_isPrefix _) ne, ← start, start_join rfl, Option.getD_none,
      Path.names_join _ rfl] at leads
    have nothing : Path.names [] = [] := by decide
    rw [nothing, List.append_nil, ← names] at leads
    obtain rfl := leads.unique above
    simp [last.dir_of_ne_nil (by simp)] at vacant

end Disk

variable {c : Scratch} {d d' : Disk} {root x name : Text} {l : Location} {ns : List Text} {e : Entry}

namespace Path.Under

theorem refl (root : Text) : Under root root [] := ⟨rfl, (List.append_nil _).symm, by simp⟩

theorem join (h : Under root x ns) (plain : '/' ∉ name) (proper : ¬ (name = [] ∨ name = "."))
    (inside : name ≠ "..") : Under root (join x name) (ns ++ [name]) where
  start := (isAbsolute_join (isAbsolute_of_not_mem plain)).trans h.start
  names := by
    have single : Path.names name = [name] := by
      rw [names_eq, pieces_of_not_mem plain, leading_cons proper]
      rfl
    rw [names_join _ (isAbsolute_of_not_mem plain), h.names, single, List.append_assoc]
  inside mem := by
    rcases List.mem_append.1 mem with mem | mem
    · exact h.inside mem
    · exact inside (List.mem_singleton.1 mem).symm

/-- Files that have an extension have names of their own. -/
theorem file {stem extension : Text} (h : Under root x ns) (plain : '/' ∉ stem) (plain' : '/' ∉ extension)
    (long : 2 < extension.length) :
    Under root (Path.join x (stem ++ extension)) (ns ++ [stem ++ extension]) := by
  have length : 2 < (stem ++ extension).length := by
    rw [List.length_append]
    omega
  obtain ⟨proper, inside⟩ := proper_of_length length
  refine h.join (fun mem => ?_) proper inside
  exact (List.mem_append.1 mem).elim plain plain'

end Path.Under

namespace Scratch

/-- Outside the directory all is as before, and in it there are no links. -/
structure Holds (c : Scratch) (d : Disk) : Prop where
  here : d.here = c.before.here
  outside : ∀ l, ¬ c.place <+: l → d.entry? l = c.before.entry? l
  dir : d.entry? c.place = some .directory
  noLink : ∀ below t, d.entry? (c.place ++ below) ≠ some (.link t)

theorem not_isPrefix (c : Scratch) (there : c.before.entry? l = some e) : ¬ c.place <+: l := by
  rintro ⟨below, rfl⟩
  rw [c.free] at there
  cases there

theorem place_ne_nil (c : Scratch) : c.place ≠ [] := by
  have free := c.free []
  rw [List.append_nil] at free
  exact ne_root_of_none free

theorem leads (c : Scratch) :
    ∃ m, Leads c.before false maxLinks (c.before.start c.root) (Path.names c.root) m c.place := by
  have none := c.free []
  rw [List.append_nil] at none
  obtain ⟨-, -, -, m, leads⟩ := locate_eq_ok_iff.1 c.located
  exact ⟨m, leads.leading_of_none none⟩

/-- A directory that is made is a scratch directory. -/
theorem exists_of_makeDirectory (sound : d.Sound) (trimmed : trimSlashes x = x)
    (made : d.makeDirectory x = .ok d') : ∃ c : Scratch, c.before = d ∧ c.root = x ∧ c.Holds d' := by
  obtain ⟨place, located, none, rfl⟩ := makeDirectory_eq_ok made
  rw [trimmed] at located
  have root := ne_root_of_none none
  refine ⟨⟨d, x, place, sound.nothing_below none, located⟩, rfl, rfl, rfl, fun l out => ?_, ?_,
    fun below t => ?_⟩
  · rw [entry?_put root, if_neg]
    rintro rfl
    exact out List.prefix_rfl
  · exact (entry?_put root place).trans (if_pos rfl)
  · rw [entry?_put root]
    split
    · simp
    · rw [sound.nothing_below none]
      simp

theorem Holds.extends (h : c.Holds d) : Extends c.before d where
  here := h.here
  keeps l e there := (h.outside l (c.not_isPrefix there)).trans there
  links l t there := by
    rw [← h.outside l]
    · exact there
    · rintro ⟨below, rfl⟩
      exact h.noLink below t there

namespace Holds

/-- Only what is in the directory changes. -/
theorem change (h : c.Holds d) (here : d'.here = d.here)
    (same : ∀ l, ¬ (c.place <+: l ∧ l ≠ c.place) → d'.entry? l = d.entry? l)
    (links : ∀ l t, d'.entry? l = some (.link t) → d.entry? l = some (.link t)) : c.Holds d' where
  here := here.trans h.here
  outside l out := (same l fun within => out within.1).trans (h.outside l out)
  dir := (same c.place (by simp)).trans h.dir
  noLink below t there := h.noLink below t (links _ t there)

theorem start (h : c.Holds d) (same : Path.isAbsolute x = Path.isAbsolute c.root) :
    d.start x = c.before.start c.root := by
  rw [Disk.start, Disk.start, same, h.here]

/-- Where the names of the root lead. -/
theorem leads_root (h : c.Holds d) :
    ∃ m, Leads d false maxLinks (c.before.start c.root) (Path.names c.root) m c.place := by
  obtain ⟨m, leads⟩ := c.leads
  exact ⟨m, leads.extends h.extends⟩

theorem follow_root (h : c.Holds d) :
    ∃ m, Leads d true maxLinks (c.before.start c.root) (Path.names c.root) m c.place := by
  obtain ⟨m, leads⟩ := h.leads_root
  exact ⟨m, leads.follow_of_noLink (by simp [h.dir])⟩

theorem locate_root (h : c.Holds d) {f : Bool} : d.locate f c.root = .ok c.place := by
  have located := locate_extends h.extends c.located
  cases f with
  | false => exact located
  | true => exact locate_follow located (by simp [h.dir])

/-- After further changes outside, the root leads to the directory or nowhere. -/
theorem eq_of_locate_root {d'' : Disk} (h : c.Holds d) (ext : Extends d d') (narrow : Narrows d' d'')
    (located : d''.locate true c.root = .ok l) : l = c.place := by
  obtain ⟨m, known⟩ := h.leads_root
  obtain ⟨-, -, -, k, leads⟩ := locate_eq_ok_iff.1 located
  have leads := leads.leading
  have start : d''.start c.root = c.before.start c.root := by
    rw [Disk.start, Disk.start, narrow.here, ext.here, h.here]
  rw [start] at leads
  exact (known.extends ext).eq_of_narrows (by simp [ext.keeps _ _ h.dir]) narrow leads

/-- A path that goes down from the root leads to its place in the directory. -/
theorem locate_eq (h : c.Holds d) (under : Path.Under c.root x ns) (located : d.locate true x = .ok l) :
    l = c.place ++ ns := by
  obtain ⟨-, -, -, m, leads⟩ := locate_eq_ok_iff.1 located
  have leads := leads.leading
  rw [h.start under.start, ← Path.names_eq, under.names] at leads
  obtain ⟨n, q, first, last⟩ := leads.split (.inl rfl)
  obtain ⟨k, known⟩ := h.follow_root
  obtain rfl := first.unique known
  rw [last.eq_append h.noLink under.inside]
  have idle : ∀ name ∈ ns, ¬ (name = [] ∨ name = ".") := by
    intro name mem
    have mem : name ∈ Path.names x := by
      rw [under.names]
      exact List.mem_append_right _ mem
    have := (List.mem_filter.1 mem).2
    simpa [not_or] using this
  rw [Path.leading, List.filter_eq_self.2]
  intro name mem
  simpa [not_or] using idle name mem

theorem put (h : c.Holds d) (within : c.place <+: l) (ne : l ≠ c.place) (noLink : ∀ t, e ≠ .link t) :
    c.Holds (d.put l e) := by
  have root : l ≠ [] := by
    rintro rfl
    exact ne (List.prefix_nil.1 within).symm
  refine h.change rfl (fun k out => ?_) fun k t there => ?_
  · rw [entry?_put root, if_neg]
    rintro rfl
    exact out ⟨within, ne⟩
  · rw [entry?_put root] at there
    split at there
    · exact absurd (Option.some.inj there) (noLink t)
    · exact there

/-- What a path under the root leads to is in the directory, if it is not a directory. -/
theorem write (h : c.Holds d) (under : Path.Under c.root x ns) {content : Bytes} {executable : Bool}
    (written : d.write x content executable = .ok d') : c.Holds d' := by
  obtain ⟨l, located, written⟩ := Except.bind_eq_ok_iff.1 written
  have within : c.place <+: l := h.locate_eq under located ▸ List.prefix_append _ _
  have ne (out : d.entry? l ≠ some .directory) : l ≠ c.place := by
    rintro rfl
    exact out h.dir
  cases there : d.entry? l with
  | none =>
    simp only [there] at written
    obtain rfl := Except.ok.inj written
    exact h.put within (ne (by simp [there])) (by simp)
  | some e =>
    simp only [there] at written
    cases e with
    | file =>
      obtain rfl := Except.ok.inj written
      exact h.put within (ne (by simp [there])) (by simp)
    | device =>
      obtain rfl := Except.ok.inj written
      exact h
    | directory | link | program => cases written

/-- What nothing was at, and a path under the root leads to, can be made a directory. -/
theorem put_directory (h : c.Holds d) (under : Path.Under c.root x ns) (located : d.locate true x = .ok l)
    (none : d.entry? l = none) : c.Holds (d.put l .directory) := by
  have within : c.place <+: l := h.locate_eq under located ▸ List.prefix_append _ _
  refine h.put within ?_ (by simp)
  rintro rfl
  simp [h.dir] at none

/-- On the way to a path under the root, what is not there yet is in the scratch directory. -/
theorem exists_under {y : Text} (h : c.Holds d) (under : Path.Under c.root y ns)
    (absolute : x = [] ∨ Path.isAbsolute x = Path.isAbsolute y) (names : Path.names x <+: Path.names y)
    (located : d.locate false (trimSlashes x) = .ok l) (none : d.entry? l = none) :
    d.locate true (trimSlashes x) = .ok l ∧ ∃ ms, ms <+: ns ∧ Path.Under c.root (trimSlashes x) ms := by
  obtain ⟨nul, ne, fits, m, leads⟩ := locate_eq_ok_iff.1 located
  have leads := leads.follow none
  have same : Path.isAbsolute (trimSlashes x) = Path.isAbsolute c.root := by
    rw [Path.isAbsolute_of_isPrefix (trimSlashes_isPrefix x) ne]
    rcases absolute with rfl | same
    · exact absurd rfl ne
    · exact same.trans under.start
  refine ⟨locate_eq_ok_iff.2 ⟨nul, ne, fits, m, leads⟩, ?_⟩
  rw [under.names] at names
  rcases List.prefix_or_prefix_of_prefix names (List.prefix_append _ ns) with ⟨rest, whole⟩ | ⟨ms, eq⟩
  · -- The way to the scratch directory goes through directories.
    have leads := leads.leading
    rw [h.start same, ← Path.names_eq, names_trimSlashes] at leads
    obtain ⟨k, known⟩ := h.follow_root
    rw [← whole] at known
    obtain ⟨n, q, first, last⟩ := known.split (.inl rfl)
    obtain rfl := leads.unique first
    by_cases there : rest = []
    · subst there
      cases last
      simp [h.dir] at none
    · simp [last.dir_of_ne_nil there] at none
  · rw [← eq, List.prefix_append_right_inj] at names
    exact ⟨ms, names, same, by rw [names_trimSlashes, eq], fun mem => under.inside (names.subset mem)⟩

/-- On the way to a path under the root, directories are made in the scratch directory only. -/
theorem makeDirectory {y : Text} (h : c.Holds d) (under : Path.Under c.root y ns)
    (absolute : x = [] ∨ Path.isAbsolute x = Path.isAbsolute y) (names : Path.names x <+: Path.names y)
    (made : d.makeDirectory x = .ok d') : c.Holds d' := by
  obtain ⟨l, located, none, rfl⟩ := makeDirectory_eq_ok made
  obtain ⟨follow, ms, -, under'⟩ := h.exists_under under absolute names located none
  exact h.put_directory under' follow none

theorem paves {y : Text} (h : c.Holds d) (under : Path.Under c.root y ns)
    (paved : Paves (y :: Path.parents y) d d') : c.Holds d' := by
  induction paved with
  | refl => exact h
  | step _ mem made ih =>
    rcases List.mem_cons.1 mem with rfl | mem
    · exact ih.makeDirectory under (.inr rfl) List.prefix_rfl made
    · exact ih.makeDirectory under (Path.isAbsolute_of_mem_parents mem) (Path.names_isPrefix_of_mem_parents mem)
        made

/-- What is made on the way to a path under the root is at a place on that way. -/
theorem entry?_paves {y : Text} (h : c.Holds d) (under : Path.Under c.root y ns)
    (paved : Paves (y :: Path.parents y) d d') (there : d'.entry? l = some e) :
    d.entry? l = some e ∨ ∃ ms, ms <+: ns ∧ l = c.place ++ ms := by
  induction paved generalizing e with
  | refl => exact .inl there
  | @step d₁ d₂ x before mem made ih =>
    obtain ⟨k, located, none, rfl⟩ := makeDirectory_eq_ok made
    have root := ne_root_of_none none
    rw [entry?_put root] at there
    split at there
    next same =>
      have way : (x = [] ∨ Path.isAbsolute x = Path.isAbsolute y) ∧ Path.names x <+: Path.names y := by
        rcases List.mem_cons.1 mem with rfl | mem
        · exact ⟨.inr rfl, List.prefix_rfl⟩
        · exact ⟨Path.isAbsolute_of_mem_parents mem, Path.names_isPrefix_of_mem_parents mem⟩
      have holds := h.paves under before
      obtain ⟨follow, ms, front, under'⟩ := holds.exists_under under way.1 way.2 located none
      exact .inr ⟨ms, front, same.trans (holds.locate_eq under' follow)⟩
    · exact ih there

theorem erase (h : c.Holds d) (within : c.place <+: l) (ne : l ≠ c.place) : c.Holds (d.erase l) := by
  refine h.change rfl (fun k out => ?_) fun k t there => ?_
  · rw [entry?_erase, if_neg]
    rintro ⟨rfl, -⟩
    exact out ⟨within, ne⟩
  · rw [entry?_erase] at there
    split at there
    · cases there
    · exact there

theorem copyTree (h : c.Holds d) {source target : Location} {excluded : List Location}
    (within : c.place <+: target) (ne : target ≠ c.place) : c.Holds (d.copyTree source excluded target) := by
  have root : target ≠ [] := by
    rintro rfl
    exact ne (List.prefix_nil.1 within).symm
  have ext : Extends d (d.copyTree source excluded target) := extends_copyTree root
  refine h.change rfl (fun l out => ?_) ext.links
  have elsewhere : ¬ target <+: l := by
    intro inside
    refine out ⟨within.trans inside, ?_⟩
    rintro rfl
    exact ne (inside.eq_of_length_le within.length_le)
  refine Option.ext fun e => ⟨fun there => ?_, ext.keeps l e⟩
  exact (entry?_copyTree_cases there).resolve_right elsewhere

end Holds

end Scratch

end FloatFlattening
