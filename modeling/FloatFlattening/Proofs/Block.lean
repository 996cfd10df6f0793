import FloatFlattening.Flattening.Basic
import FloatFlattening.Proofs.Markup.Sets
import FloatFlattening.Proofs.Outline.Basic
/-!
The blocks collected from an outline: each stands for a float there, with its span, its name and its
caption, and with a stem that any text can hold.
-/

namespace FloatFlattening

open Text

namespace Stem

theorem inner_of_isSafe {c : Char} (h : isSafe c) : isInner c := by
  by_contra not
  simp only [isInner, ne_eq, Bool.and_eq_true, decide_eq_true_eq, not_and_or, not_not] at not
  rcases not with (rfl | rfl) | rfl <;> exact absurd h (by decide)

theorem safe_ofNat (n : Nat) : ∀ c ∈ Text.ofNat n, isSafe c := by
  intro c hc
  have digit := Nat.isDigit_of_mem_toDigits (b := 10) (by decide) (by decide) hc
  have ascii : c.toNat < 0x80 := by
    simp only [Char.isDigit, Bool.and_eq_true, decide_eq_true_eq, UInt32.le_iff_toNat_le] at digit
    exact Nat.lt_of_le_of_lt digit.2 (by decide)
  simp [isSafe, isNumber, ascii, digit]

end Stem

theorem Text.inner_ofNat (n : Nat) : ∀ c ∈ ofNat n, isInner c := fun c hc =>
  Stem.inner_of_isSafe (Stem.safe_ofNat n c hc)

theorem Outline.inner_syntheticLabel (k : Nat) : ∀ c ∈ syntheticLabel k, isInner c :=
  List.forall_mem_append.2 ⟨by decide, inner_ofNat k⟩

theorem Outline.trim_syntheticLabel (k : Nat) : (syntheticLabel k).trim = syntheticLabel k := by
  have first : (syntheticLabel k).head? = some 'f' := rfl
  have last : (syntheticLabel k).getLast? = (Nat.toDigits 10 k).getLast? :=
    List.getLast?_append_of_ne_nil _ Nat.toDigits_ne_nil
  refine trim_eq_self (fun c hc => ?_) fun c hc => ?_
  · rw [first] at hc
    obtain rfl := Option.some.inj hc
    decide
  · rw [last] at hc
    have digit := Nat.isDigit_of_mem_toDigits (b := 10) (by decide) (by decide) (List.mem_of_getLast? hc)
    exact isBlank_of_isDigit digit

namespace Stem

variable {used : List Text} {base t : Text}

theorem safe_sanitize (t : Text) : ∀ c ∈ sanitize t, isSafe c := by
  fun_induction sanitize t with
  | case1 => simp
  | case2 c t safe ih => exact List.forall_mem_cons.2 ⟨safe, ih⟩
  | case3 => decide
  | case4 c not d t safe ih => exact List.forall_mem_cons.2 ⟨by decide, ih⟩
  | case5 c not d t not' ih => exact ih

theorem safe_ofLabel (label : Text) : ∀ c ∈ ofLabel label, isSafe c := by
  rw [ofLabel]
  split
  · decide
  · intro c hc
    rw [trimUnderscores, List.mem_reverse] at hc
    have hc := (List.dropWhile_suffix _).subset (List.mem_reverse.1 ((List.dropWhile_suffix _).subset hc))
    exact safe_sanitize _ c hc

theorem safe_fresh (h : ∀ c ∈ base, isSafe c) : ∀ c ∈ fresh used base, isSafe c := by
  have candidates (n : Nat) : ∀ c ∈ candidate base n, isSafe c := by
    intro c hc
    rw [candidate] at hc
    split at hc
    · exact h c hc
    · rcases List.mem_append.1 hc with hc | hc
      · rcases List.mem_append.1 hc with hc | hc
        · exact h c hc
        · rw [List.mem_singleton.1 hc]
          decide
      · exact safe_ofNat n c hc
  rw [fresh]
  cases found : ((List.range' 1 (used.length + 1)).map (candidate base)).find? (· ∉ used) with
  | none => exact h
  | some stem =>
    obtain ⟨n, -, rfl⟩ := List.mem_map.1 (List.mem_of_find?_eq_some found)
    exact candidates n

end Stem

/-- The letter of the panel that owns a mark. -/
def Figure.letterOf? (f : Figure) (m : Mark) : Option Char :=
  (f.panels.findIdx? fun p => m ∈ p.marks).bind Panel.letter?

namespace Block

variable {o : Outline} {b : Block} {blocks : List Block} {withTables : Bool} {t : Text} {f : Figure}
  {table : Table}

/-- The float that a block stands for, with its body and the letters of its marks. -/
inductive IsOf (o : Outline) (b : Block) : Span → (Mark → Option Char) → Prop
  | figure (f : Figure) (mem : f ∈ o.figures) (multi : f.IsMulti) (span : b.span = f.span)
      (name : b.name = f.name) : IsOf o b f.body f.letterOf?
  | table (table : Table) (mem : table ∈ o.tables) (span : b.span = table.span)
      (name : b.name = .ofMark? table.marks.head?) : IsOf o b table.body fun _ => none

/-- The float that a block is made from. -/
inductive Made (o : Outline) (b : Block) : Prop
  | figure (f : Figure) (mem : f ∈ o.figures) (multi : f.IsMulti) (made : ofFigure o.text f = .ok b)
  | table (table : Table) (position : Nat) (mem : table ∈ o.tables)
      (made : ofTable o.text table position = .ok b)

theorem ofFigure_ok (h : ofFigure t f = .ok b) : b.kind = .figure ∧ imagesOfFigure t f = .ok b.images ∧
    b.span = f.span ∧ b.caption = f.caption? ∧ b.name = f.name ∧
      ∃ label, b.stem = "multifig_" ++ Stem.ofLabel label := by
  rw [ofFigure, Except.bind_eq_ok_iff] at h
  obtain ⟨images, made, h⟩ := h
  obtain rfl := Except.ok.inj h
  exact ⟨rfl, made, rfl, rfl, rfl, _, rfl⟩

theorem ofTable_ok {position : Nat} (h : ofTable t table position = .ok b) : b.kind = .table ∧
    b.span = table.span ∧ b.caption = table.caption? ∧ b.name = .ofMark? table.marks.head? ∧
      ∃ stem, b.stem = "multitab_" ++ stem ∧ ∀ c ∈ stem, Stem.isSafe c := by
  rw [ofTable, Except.bind_eq_ok_iff] at h
  obtain ⟨graphics, -, h⟩ := h
  obtain rfl := Except.ok.inj h
  refine ⟨rfl, rfl, rfl, rfl, _, rfl, ?_⟩
  cases table.label? with
  | none => exact Stem.safe_ofNat _
  | some label => exact Stem.safe_ofLabel label

theorem mem_separateStems {used : List Text} {bs : List Block} (h : b ∈ separateStems used bs) :
    ∃ b' ∈ bs, ∃ used, b = { b' with stem := Stem.fresh used b'.stem } := by
  induction bs generalizing used with
  | nil => cases h
  | cons b' bs ih =>
    rcases List.mem_cons.1 h with rfl | h
    · exact ⟨b', by simp, used, rfl⟩
    · obtain ⟨b'', mem, eq⟩ := ih h
      exact ⟨b'', List.mem_cons_of_mem b' mem, eq⟩

theorem exists_mem_separateStems (used : List Text) {bs : List Block} (h : b ∈ bs) :
    ∃ stem, { b with stem } ∈ separateStems used bs := by
  induction bs generalizing used with
  | nil => cases h
  | cons b' bs ih =>
    rw [separateStems]
    rcases List.mem_cons.1 h with rfl | h
    · exact ⟨_, List.mem_cons_self⟩
    · obtain ⟨stem, mem⟩ := ih (Stem.fresh used b'.stem :: used) h
      exact ⟨stem, List.mem_cons_of_mem _ mem⟩

/-- A table that is to be a block is one with all its images. -/
theorem exists_block_of_table (h : ofOutline true o = .ok blocks) (mem : table ∈ o.tables) :
    ∃ b ∈ blocks, b.kind = .table ∧
      b.images.map Image.path = (Graphic.inSpan o.text table.body).found.map Graphic.path := by
  simp only [ofOutline, if_true, Except.bind_eq_ok_iff] at h
  obtain ⟨figures, -, tables, made, h⟩ := h
  obtain rfl := Except.ok.inj h
  obtain ⟨i, hi⟩ := List.mem_iff_getElem?.1 mem
  obtain ⟨b, hb, made⟩ := exists_right_of_forall₂ (Except.mapM_eq_ok_iff.1 made)
    (List.mk_mem_zipIdx_iff_getElem?.2 hi)
  obtain ⟨stem, mem⟩ := exists_mem_separateStems [] (List.mem_append_right figures hb)
  refine ⟨_, List.mem_mergeSort.2 mem, ?_⟩
  simp only [ofTable, Except.bind_eq_ok_iff, Scan.complete_eq_ok_iff] at made
  obtain ⟨_, ⟨-, rfl⟩, made⟩ := made
  obtain rfl := Except.ok.inj made
  exact ⟨rfl, by rw [List.map_map]; rfl⟩

theorem exists_made (h : ofOutline withTables o = .ok blocks) (hb : b ∈ blocks) :
    ∃ b' : Block, ∃ used, b'.Made o ∧ b = { b' with stem := Stem.fresh used b'.stem } := by
  simp only [ofOutline, Except.bind_eq_ok_iff, Except.mapM_eq_ok_iff] at h
  obtain ⟨figures, hf, h⟩ := h
  have of_figure {b : Block} (mem : b ∈ figures) : b.Made o := by
    obtain ⟨f, mem, ok⟩ := exists_left_of_forall₂ hf mem
    obtain ⟨mem, multi⟩ := List.mem_filter.1 mem
    exact .figure f mem (of_decide_eq_true multi) ok
  cases withTables with
  | false =>
    obtain rfl := Except.ok.inj h
    obtain ⟨b, mem, used, rfl⟩ := mem_separateStems (List.mem_mergeSort.1 hb)
    exact ⟨b, used, of_figure (by simpa using mem), rfl⟩
  | true =>
    obtain ⟨tables, ht, h⟩ := Except.bind_eq_ok_iff.1 h
    obtain rfl := Except.ok.inj h
    obtain ⟨b, mem, used, rfl⟩ := mem_separateStems (List.mem_mergeSort.1 hb)
    refine ⟨b, used, ?_, rfl⟩
    rcases List.mem_append.1 mem with mem | mem
    · exact of_figure mem
    · obtain ⟨⟨table, i⟩, mem, ok⟩ := exists_left_of_forall₂ (Except.mapM_eq_ok_iff.1 ht) mem
      exact .table table i (List.fst_mem_of_mem_zipIdx mem) ok

theorem exists_isOf (h : ofOutline withTables o = .ok blocks) (hb : b ∈ blocks) :
    ∃ body letter?, b.IsOf o body letter? := by
  obtain ⟨b, used, made, rfl⟩ := exists_made h hb
  cases made with
  | figure f mem multi made =>
    obtain ⟨-, -, span, -, name, -⟩ := ofFigure_ok made
    exact ⟨_, _, .figure f mem multi span name⟩
  | table table position mem made =>
    obtain ⟨-, span, -, name, -⟩ := ofTable_ok made
    exact ⟨_, _, .table table mem span name⟩

/-- The stem of a block can be the name of a file. -/
theorem safe_stem (h : ofOutline withTables o = .ok blocks) (hb : b ∈ blocks) :
    ∀ c ∈ b.stem, Stem.isSafe c := by
  obtain ⟨b, used, made, rfl⟩ := exists_made h hb
  refine Stem.safe_fresh ?_
  cases made with
  | figure f mem multi made =>
    obtain ⟨-, -, -, -, -, label, stem⟩ := ofFigure_ok made
    rw [stem]
    exact List.forall_mem_append.2 ⟨by decide, Stem.safe_ofLabel label⟩
  | table table position mem made =>
    obtain ⟨-, -, -, -, rest, stem, safe⟩ := ofTable_ok made
    rw [stem]
    exact List.forall_mem_append.2 ⟨by decide, safe⟩

/-- Where a block lies and what it is called; both are those of its float. -/
def place (b : Block) : Span × FloatName := (b.span, b.name)

theorem map_place_separateStems (used : List Text) (bs : List Block) :
    (separateStems used bs).map place = bs.map place := by
  induction bs generalizing used with
  | nil => rfl
  | cons b bs ih =>
    rw [separateStems, List.map_cons, List.map_cons, ih]
    rfl

/-- The floats that are to be blocks. -/
def places (withTables : Bool) (o : Outline) : List (Span × FloatName) :=
  o.multiFigures.map (fun f => (f.span, f.name)) ++
    if withTables then o.tables.map fun table => (table.span, .ofMark? table.marks.head?) else []

theorem exists_bare_blocks (h : ofOutline withTables o = .ok blocks) :
    ∃ bs, blocks = (separateStems [] bs).mergeSort (fun b c => b.span.start ≤ c.span.start) ∧
      bs.map place = places withTables o := by
  rw [ofOutline, Except.bind_eq_ok_iff] at h
  obtain ⟨figures, hf, h⟩ := h
  have ofFigures : o.multiFigures.map (fun f => (f.span, f.name)) = figures.map place :=
    map_eq_of_forall₂ (Except.mapM_eq_ok_iff.1 hf) fun f b ok => by
      obtain ⟨-, -, span, -, name, -⟩ := ofFigure_ok ok
      rw [place, span, name]
  cases withTables with
  | false => exact ⟨figures ++ [], (Except.ok.inj h).symm, by rw [places, ofFigures, List.map_append]; rfl⟩
  | true =>
    obtain ⟨tables, ht, h⟩ := Except.bind_eq_ok_iff.1 h
    let float (table : Table) : Span × FloatName := (table.span, .ofMark? table.marks.head?)
    have ofTables : o.tables.zipIdx.map (float ∘ Prod.fst) = tables.map place :=
      map_eq_of_forall₂ (Except.mapM_eq_ok_iff.1 ht) fun p b ok => by
        obtain ⟨-, span, -, name, -⟩ := ofTable_ok ok
        rw [place, span, name]
        rfl
    rw [← List.map_map, List.zipIdx_map_fst] at ofTables
    exact ⟨figures ++ tables, (Except.ok.inj h).symm, by rw [places, ofFigures, List.map_append, ← ofTables]; rfl⟩

/-- The blocks are those floats, each once. -/
theorem perm_places (h : ofOutline withTables o = .ok blocks) :
    (blocks.map place).Perm (places withTables o) := by
  obtain ⟨bs, rfl, eq⟩ := exists_bare_blocks h
  rw [← eq, ← map_place_separateStems [] bs]
  exact (List.mergeSort_perm _ _).map place

theorem sorted_of_ofOutline (h : ofOutline withTables o = .ok blocks) :
    blocks.Pairwise fun b c => b.span.start ≤ c.span.start := by
  obtain ⟨bs, rfl, -⟩ := exists_bare_blocks h
  exact pairwise_mergeSort_key _ _

/-- Without flattened tables, all blocks are figures. -/
theorem kind_of_ofOutline (h : ofOutline false o = .ok blocks) (hb : b ∈ blocks) : b.kind = .figure := by
  simp only [ofOutline, Bool.false_eq_true, if_false, Except.bind_eq_ok_iff] at h
  obtain ⟨figures, made, tables, none, h⟩ := h
  obtain rfl := Except.ok.inj none
  obtain rfl := Except.ok.inj h
  obtain ⟨b', hb', used, rfl⟩ := mem_separateStems (List.mem_mergeSort.1 hb)
  rw [List.append_nil] at hb'
  obtain ⟨f, -, hf⟩ := exists_left_of_forall₂ (Except.mapM_eq_ok_iff.1 made) hb'
  rw [ofFigure, Except.bind_eq_ok_iff] at hf
  obtain ⟨images, -, hf⟩ := hf
  obtain rfl := Except.ok.inj hf
  rfl

/-- A block as it is read off the environment of its float. -/
structure Reads (t : Text) (o : Outline) (e : Environment) (b : Block) : Prop where
  lies : Environment.LiesIn t e
  span : b.span = e.span
  caption : ∀ x ∈ b.caption, ∃ c ∈ (Command.inSpan t e.body ["caption"]).found, c.argument = x
  name : ∀ id ∈ b.name.id?, (∃ m ∈ (Mark.inSpan t e.body).found, m.id = id) ∨
    ∃ f ∈ o.figures, f.made? = some id ∧ f.span = b.span
  stem : ∀ c ∈ b.stem, isInner c

theorem exists_reads (reads : o.Reads t) (h : ofOutline withTables o = .ok blocks) (hb : b ∈ blocks) :
    ∃ e, b.Reads t o e := by
  have stem (c : Char) (hc : c ∈ b.stem) : isInner c := Stem.inner_of_isSafe (safe_stem h hb c hc)
  obtain ⟨b, used, made, rfl⟩ := exists_made h hb
  cases made with
  | figure f mem multi made =>
    obtain ⟨-, -, span, caption, name, -⟩ := ofFigure_ok made
    obtain ⟨e, lies, figure⟩ := reads.exists_figure mem
    refine ⟨e, lies, span.trans figure.span, ?_, ?_, stem⟩
    · intro x hx
      rw [caption, Figure.caption?, figure.captions] at hx
      obtain ⟨c, last, rfl⟩ := Option.map_eq_some_iff.1 hx
      exact ⟨c, (List.mem_filter.1 (List.mem_of_getLast? last)).1, rfl⟩
    · intro id hid
      rw [name] at hid
      cases reads.called f mem with
      | own name' named =>
        cases last : f.marks.getLast? with
        | none => simp [name', last, FloatName.ofMark?, FloatName.id?] at hid
        | some m =>
          have id : m.id = id := by simpa [name', last, FloatName.ofMark?, FloatName.id?] using hid
          exact .inl ⟨m, figure.marks_sublist.subset (List.mem_of_getLast? last), id⟩
      | made k name' =>
        refine .inr ⟨f, mem, ?_, span.symm⟩
        simpa [Figure.made?, name', FloatName.id?] using hid
  | table table position mem made =>
    obtain ⟨-, span, caption, name, -⟩ := ofTable_ok made
    obtain ⟨e, lies, table⟩ := reads.exists_table mem
    refine ⟨e, lies, span.trans table.span, ?_, ?_, stem⟩
    · intro x hx
      rw [caption, Table.caption?, table.captions] at hx
      obtain ⟨c, last, rfl⟩ := Option.map_eq_some_iff.1 hx
      exact ⟨c, List.mem_of_getLast? last, rfl⟩
    · intro id hid
      rw [name, table.marks] at hid
      cases first : (Mark.inSpan t e.body).found.head? with
      | none => simp [first, FloatName.ofMark?, FloatName.id?] at hid
      | some m =>
        have id : m.id = id := by simpa [first, FloatName.ofMark?, FloatName.id?] using hid
        exact .inl ⟨m, List.mem_of_head? first, id⟩

end Block

namespace Flattened

theorem mem_of_mem_chosen {blocks : List Block} {images : List Replacement} {c : Block × Text}
    (h : c ∈ chosen blocks images) : c.1 ∈ blocks := by
  rw [chosen, List.mem_mergeSort, List.mem_filterMap] at h
  obtain ⟨r, -, h⟩ := h
  obtain ⟨b, hb, rfl⟩ := Option.map_eq_some_iff.1 h
  exact List.mem_of_getElem? hb

end Flattened

end FloatFlattening
