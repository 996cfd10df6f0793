import FloatFlattening.Proofs.Flattening.Overlap
import Mathlib.Data.List.Perm.Subperm
/-!
The files of blocks. Blocks have stems of their own, a stem is a file name without its extension, and a
figure has the same one whether or not tables are flattened too.
-/

namespace FloatFlattening

theorem Text.ofNat_injective : Function.Injective ofNat := by
  intro m n h
  have := congrArg (Nat.ofDigitChars 10 · 0) h
  simpa [ofNat] using this

namespace Stem

variable {used : List Text} {base : Text}

theorem candidate_inj {m n : Nat} (h : candidate base m = candidate base n) : m = n := by
  simp only [candidate] at h
  split_ifs at h with hm hn hn
  · rw [hm, hn]
  · have := congrArg List.length h
    simp at this
  · have := congrArg List.length h
    simp at this
  · exact Text.ofNat_injective (List.append_cancel_left h)

/-- Of more candidates than are in use, one is free. -/
theorem exists_free (used : List Text) (base : Text) :
    ∃ stem ∈ (List.range' 1 (used.length + 1)).map (candidate base), stem ∉ used := by
  by_contra none
  have sub : (List.range' 1 (used.length + 1)).map (candidate base) ⊆ used := by
    intro stem mem
    by_contra free
    exact none ⟨stem, mem, free⟩
  have nodup : ((List.range' 1 (used.length + 1)).map (candidate base)).Nodup :=
    List.Nodup.map (fun _ _ => candidate_inj) List.nodup_range'
  have := (nodup.subperm sub).length_le
  rw [List.length_map, List.length_range'] at this
  omega

theorem fresh_spec (used : List Text) (base : Text) :
    fresh used base ∉ used ∧ ∃ n, fresh used base = candidate base n := by
  obtain ⟨stem, mem, free⟩ := exists_free used base
  rw [fresh]
  cases found : ((List.range' 1 (used.length + 1)).map (candidate base)).find? (· ∉ used) with
  | none => exact absurd free (by simpa using List.find?_eq_none.1 found stem mem)
  | some stem =>
    obtain ⟨n, -, eq⟩ := List.mem_map.1 (List.mem_of_find?_eq_some found)
    exact ⟨by simpa using List.find?_some found, n, eq.symm⟩

theorem fresh_ne_nil (used : List Text) (h : base ≠ []) : fresh used base ≠ [] := by
  obtain ⟨-, n, eq⟩ := fresh_spec used base
  rw [eq, candidate]
  split
  · exact h
  · simp

end Stem

namespace Block

variable {t : Text} {o : Outline} {b : Block} {blocks bs cs : List Block} {withTables : Bool}

theorem separateStems_append (used : List Text) (bs cs : List Block) :
    ∃ used', separateStems used (bs ++ cs) = separateStems used bs ++ separateStems used' cs := by
  induction bs generalizing used with
  | nil => exact ⟨used, rfl⟩
  | cons b bs ih =>
    obtain ⟨used', eq⟩ := ih (Stem.fresh used b.stem :: used)
    exact ⟨used', by rw [List.cons_append, separateStems, eq, separateStems, List.cons_append]⟩

/-- A stem that has been given is not given again. -/
theorem nodup_separateStems (used : List Text) (bs : List Block) :
    ((separateStems used bs).map stem).Nodup ∧ ∀ b ∈ separateStems used bs, b.stem ∉ used := by
  induction bs generalizing used with
  | nil => simp [separateStems]
  | cons b bs ih =>
    obtain ⟨nodup, free⟩ := ih (Stem.fresh used b.stem :: used)
    obtain ⟨new, -⟩ := Stem.fresh_spec used b.stem
    rw [separateStems, List.map_cons, List.nodup_cons, List.forall_mem_cons]
    refine ⟨⟨?_, nodup⟩, new, fun c hc mem => free c hc (List.mem_cons_of_mem _ mem)⟩
    intro mem
    obtain ⟨c, hc, eq⟩ := List.mem_map.1 mem
    exact free c hc (by rw [eq]; exact List.mem_cons_self)

theorem nodup_stems (h : ofOutline withTables o = .ok blocks) : (blocks.map stem).Nodup := by
  obtain ⟨bs, rfl, -⟩ := exists_bare_blocks h
  exact ((List.mergeSort_perm _ _).map stem).nodup_iff.2 (nodup_separateStems [] bs).1

theorem stem_ne_nil (h : ofOutline withTables o = .ok blocks) (hb : b ∈ blocks) : b.stem ≠ [] := by
  obtain ⟨b, used, made, rfl⟩ := exists_made h hb
  refine Stem.fresh_ne_nil used ?_
  cases made with
  | figure f mem multi made =>
    obtain ⟨-, -, -, -, -, label, stem⟩ := ofFigure_ok made
    simp [stem]
  | table table position mem made =>
    obtain ⟨-, -, -, -, rest, stem, -⟩ := ofTable_ok made
    simp [stem]

/-- The document that typesets a block, its page and its picture. -/
def fileNames (b : Block) : List Text := [(".tex" : Text), ".pdf", ".png"].map (b.stem ++ ·)

theorem nodup_fileNames (h : (blocks.map stem).Nodup) : (blocks.flatMap fileNames).Nodup := by
  refine List.nodup_flatMap.2 ⟨fun b _ => ?_, ?_⟩
  · exact List.Nodup.map (List.append_right_injective b.stem) (by decide)
  · refine (List.pairwise_map.1 h).imp fun {b c} ne name hb hc => ne ?_
    obtain ⟨x, hx, rfl⟩ := List.mem_map.1 hb
    obtain ⟨y, hy, eq⟩ := List.mem_map.1 hc
    have length : ∀ x ∈ [(".tex" : Text), ".pdf", ".png"], x.length = 4 := by decide
    exact (List.append_inj' eq.symm ((length x hx).trans (length y hy).symm)).1

theorem isSingleName_of_safe {stem extension : Text} (safe : ∀ c ∈ stem, Stem.isSafe c)
    (known : extension ∈ [(".tex" : Text), ".pdf", ".png"]) : Settings.isSingleName (stem ++ extension) := by
  have plain : ∀ c ∈ stem ++ extension, c ≠ '/' ∧ c ≠ '\\' := by
    intro c hc
    rcases List.mem_append.1 hc with hc | hc
    · constructor <;> rintro rfl <;> exact absurd (safe _ hc) (by decide)
    · have : ∀ x ∈ [(".tex" : Text), ".pdf", ".png"], ∀ c ∈ x, c ≠ '/' ∧ c ≠ '\\' := by decide
      exact this extension known c hc
  have length : 4 ≤ (stem ++ extension).length := by
    have : ∀ x ∈ [(".tex" : Text), ".pdf", ".png"], x.length = 4 := by decide
    simp [this extension known]
  have slash : '/' ∉ stem ++ extension := fun mem => (plain _ mem).1 rfl
  have backslash : '\\' ∉ stem ++ extension := fun mem => (plain _ mem).2 rfl
  have long {name : Text} (short : name.length < 4) : stem ++ extension ≠ name := by
    rintro rfl
    omega
  have nil : stem ++ extension ≠ [] := long (by decide)
  have here : stem ++ extension ≠ ['.'] := long (by decide)
  have above : stem ++ extension ≠ ['.', '.'] := long (by decide)
  generalize stem ++ extension = name at *
  simp [Settings.isSingleName, nil, slash, backslash, here, above]

/-- The stems of some blocks are for their files alone, and the files can stand in one directory. -/
structure FilesApart (blocks : List Block) : Prop where
  nodup : (blocks.map stem).Nodup
  ne_nil : ∀ b ∈ blocks, b.stem ≠ []
  safe : ∀ b ∈ blocks, ∀ c ∈ b.stem, Stem.isSafe c
  apart : (blocks.flatMap fileNames).Nodup
  single : ∀ b ∈ blocks, ∀ name ∈ b.fileNames, Settings.isSingleName name

theorem filesApart (h : ofOutline withTables o = .ok blocks) : FilesApart blocks where
  nodup := nodup_stems h
  ne_nil _ hb := stem_ne_nil h hb
  safe _ hb := safe_stem h hb
  apart := nodup_fileNames (nodup_stems h)
  single b hb name hn := by
    obtain ⟨extension, known, rfl⟩ := List.mem_map.1 hn
    exact isSingleName_of_safe (safe_stem h hb) known

/-- Blocks of figures that are in order stay so among blocks of tables. -/
theorem filter_mergeSort (figures : ∀ b ∈ bs, b.kind = .figure) (tables : ∀ b ∈ cs, b.kind = .table)
    (sorted : bs.Pairwise fun b c => b.span.start ≤ c.span.start) :
    ((bs ++ cs).mergeSort fun b c => b.span.start ≤ c.span.start).filter (·.kind = .figure) = bs := by
  have all : bs.filter (·.kind = .figure) = bs := List.filter_eq_self.2 (by simpa using figures)
  have none : cs.filter (·.kind = .figure) = [] := by
    refine List.filter_eq_nil_iff.2 fun b hb => ?_
    simp [tables b hb]
  have perm := (List.mergeSort_perm (bs ++ cs) fun b c => b.span.start ≤ c.span.start).filter
    fun b => decide (b.kind = .figure)
  rw [List.filter_append, all, none, List.append_nil] at perm
  -- The sort is stable, so that the figures, which are in order, come out as they are.
  have sub : bs.Sublist ((bs ++ cs).mergeSort fun b c => b.span.start ≤ c.span.start) :=
    List.sublist_mergeSort (fun a b c => by simpa using Nat.le_trans) (fun a b => by simpa using Nat.le_total _ _)
      (by simpa using sorted) (List.sublist_append_left bs cs)
  have sub := sub.filter fun b => decide (b.kind = .figure)
  rw [all] at sub
  exact (sub.eq_of_length perm.length_eq.symm).symm

/-- The blocks of figures are in order from the start. -/
theorem sorted_figures (reads : o.Reads t) (made : o.multiFigures.mapM (ofFigure o.text) = .ok bs)
    (used : List Text) : (separateStems used bs).Pairwise fun b c => b.span.start ≤ c.span.start := by
  have starts : o.multiFigures.Pairwise fun f g => f.span.start ≤ g.span.start := by
    refine (reads.pairwise_figures.filter _).imp_of_mem fun {f g} hf _ le => ?_
    obtain ⟨e, lies, figure⟩ := reads.exists_figure (List.mem_filter.1 hf).1
    have := lies.start_lt
    have := lies.body_le
    have := lies.lt_stop
    rw [figure.span] at le ⊢
    omega
  have spans : o.multiFigures.map Figure.span = (separateStems used bs).map Block.span := by
    have places := congrArg (List.map Prod.fst) (map_place_separateStems used bs)
    rw [List.map_map, List.map_map] at places
    refine Eq.trans ?_ places.symm
    exact map_eq_of_forall₂ (Except.mapM_eq_ok_iff.1 made) fun f b ok => by
      obtain ⟨-, -, span, -⟩ := ofFigure_ok ok
      exact span.symm
  have := List.pairwise_map (R := fun r s : Span => r.start ≤ s.start).2 starts
  rwa [spans, List.pairwise_map] at this

/-- Blocks of tables make no difference to those of figures, which are given their stems before them. -/
theorem filter_figures (reads : o.Reads t) (made : o.multiFigures.mapM (ofFigure o.text) = .ok bs)
    (tables : ∀ c ∈ cs, c.kind = .table) :
    ((separateStems [] (bs ++ cs)).mergeSort fun b c => b.span.start ≤ c.span.start).filter (·.kind = .figure) =
      separateStems [] bs := by
  obtain ⟨used, eq⟩ := separateStems_append [] bs cs
  have kinds (used : List Text) {bs : List Block} {kind : Kind} (h : ∀ b ∈ bs, b.kind = kind) :
      ∀ b ∈ separateStems used bs, b.kind = kind := by
    intro b hb
    obtain ⟨b', hb', used, rfl⟩ := mem_separateStems hb
    exact h b' hb'
  have figures : ∀ b ∈ bs, b.kind = .figure := by
    intro b hb
    obtain ⟨f, -, ok⟩ := exists_left_of_forall₂ (Except.mapM_eq_ok_iff.1 made) hb
    exact (ofFigure_ok ok).1
  rw [eq]
  exact filter_mergeSort (kinds [] figures) (kinds used tables) (sorted_figures reads made [])

/-- The files of blocks are apart, and those of figures the same whether or not tables are blocks too. -/
theorem filesApart_of_ofOutline (outline : Outline.ofText t = .ok o) :
    (∀ withTables blocks, ofOutline withTables o = .ok blocks → FilesApart blocks) ∧
      ∀ all figures, ofOutline true o = .ok all → ofOutline false o = .ok figures →
        all.filter (·.kind = .figure) = figures := by
  refine ⟨fun _ _ => filesApart, fun all figures h h' => ?_⟩
  have reads := Outline.reads_of_ofText outline
  simp only [ofOutline, Bool.false_eq_true, if_true, if_false, Except.bind_eq_ok_iff] at h h'
  obtain ⟨bs, made, cs, tables, h⟩ := h
  obtain ⟨bs', made', none, nothing, h'⟩ := h'
  obtain rfl := Except.ok.inj h
  obtain rfl := Except.ok.inj nothing
  obtain rfl := Except.ok.inj h'
  obtain rfl := Except.ok.inj (made.symm.trans made')
  have kind : ∀ c ∈ cs, c.kind = .table := by
    intro c hc
    obtain ⟨_, -, ok⟩ := exists_left_of_forall₂ (Except.mapM_eq_ok_iff.1 tables) hc
    exact (ofTable_ok ok).1
  have alone := filter_figures reads made (List.forall_mem_nil fun c : Block => c.kind = .table)
  rw [filter_figures reads made kind, ← alone, List.filter_eq_self.2]
  intro b hb
  obtain ⟨b', hb', used, rfl⟩ := mem_separateStems (List.mem_mergeSort.1 hb)
  obtain ⟨f, -, ok⟩ := exists_left_of_forall₂ (Except.mapM_eq_ok_iff.1 made) (by simpa using hb')
  simpa using (ofFigure_ok ok).1

/-- Labels that would give the same stem, and one that looks like a stem told apart by a number. -/
def crowded : Text :=
  "\\begin\x7bfigure\x7d\\includegraphics\x7ba\x7d\\includegraphics\x7bb\x7d" ++
    "\\caption\x7b\x7d\\label\x7bfig:1\x7d\\end\x7bfigure\x7d" ++
    "\\begin\x7btable\x7d\\end\x7btable\x7d\\begin\x7btable\x7d\\label\x7btab-1\x7d\\end\x7btable\x7d" ++
    "\\begin\x7bfigure\x7d\\includegraphics\x7ba\x7d\\includegraphics\x7bb\x7d" ++
    "\\caption\x7b\x7d\\label\x7bfig:1_2\x7d\\end\x7bfigure\x7d" ++
    "\\begin\x7bfigure\x7d\\includegraphics\x7ba\x7d\\includegraphics\x7bb\x7d" ++
    "\\caption\x7b\x7d\\label\x7b1\x7d\\end\x7bfigure\x7d"

theorem filesApart_crowded : ∃ o all figures, Outline.ofText crowded = .ok o ∧ ofOutline true o = .ok all ∧
    ofOutline false o = .ok figures ∧ figures.map stem = ["multifig_1", "multifig_1_2", "multifig_1_3"] ∧
      all.map stem = ["multifig_1", "multitab_1", "multitab_1_2", "multifig_1_2", "multifig_1_3"] ∧
        FilesApart all ∧ all.filter (·.kind = .figure) = figures := by
  have good : ∃ o, Outline.ofText crowded = .ok o ∧ ∃ all, ofOutline true o = .ok all ∧
      ∃ figures, ofOutline false o = .ok figures ∧
        figures.map stem = ["multifig_1", "multifig_1_2", "multifig_1_3"] ∧
          all.map stem = ["multifig_1", "multitab_1", "multitab_1_2", "multifig_1_2", "multifig_1_3"] := by
    unfold Outline.ofText Figure.ofEnvironment Panel.written ofOutline ofFigure ofTable bodyWithout
    simp only [mergeSort_key_eq]
    decide +kernel
  obtain ⟨o, ho, all, hall, figures, hfigures, stems, stems'⟩ := good
  obtain ⟨apart, same⟩ := filesApart_of_ofOutline ho
  exact ⟨o, all, figures, ho, hall, hfigures, stems, stems', apart true all hall, same all figures hall hfigures⟩

end Block

end FloatFlattening
