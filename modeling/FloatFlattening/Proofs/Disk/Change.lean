import FloatFlattening.Proofs.Disk.Ways
import FloatFlattening.Proofs.Except
import FloatFlattening.WorkingCopy
import Mathlib.Data.List.Induction
import Mathlib.Data.List.Nodup
/-!
What changes of a disk leave as it was. Making directories and copying a tree add entries and keep
those there are, so names lead where they led before.
-/

namespace FloatFlattening.Disk

/-- No location has two entries, and what is there is in a directory. -/
structure Sound (d : Disk) : Prop where
  nodup : (d.entries.map Prod.fst).Nodup
  rooted : ∀ l e, d.entry? l = some e → d.entry? l.dropLast = some .directory
  here : d.entry? d.here = some .directory

/-- Entries are kept, and no links are added. -/
structure Extends (d d' : Disk) : Prop where
  here : d'.here = d.here
  keeps : ∀ l e, d.entry? l = some e → d'.entry? l = some e
  links : ∀ l t, d'.entry? l = some (.link t) → d.entry? l = some (.link t)

/-- Entries are kept, and only directories are added. -/
structure Broadens (d d' : Disk) : Prop where
  here : d'.here = d.here
  keeps : ∀ l e, d.entry? l = some e → d'.entry? l = some e
  adds : ∀ l e, d'.entry? l = some e → d.entry? l = some e ∨ e = .directory

variable {d d' d'' : Disk} {f : Bool} {n m : Nat} {p l source target : Location} {ns : List Text}
  {x : Text} {e : Entry} {excluded : List Location} {below : Location}

/-- Above what is there, there are directories. -/
theorem Sound.above (h : d.Sound) (there : d.entry? (l ++ below) = some e) (ne : below ≠ []) :
    d.entry? l = some .directory := by
  induction below using List.reverseRecOn generalizing e with
  | nil => exact absurd rfl ne
  | append_singleton below name ih =>
    have above := h.rooted _ _ there
    rw [← List.append_assoc, List.dropLast_concat] at above
    by_cases last : below = []
    · rwa [last, List.append_nil] at above
    · exact ih above last

theorem Sound.nothing_below (h : d.Sound) (free : d.entry? l = none) (below : Location) :
    d.entry? (l ++ below) = none := by
  by_cases here : below = []
  · rwa [here, List.append_nil]
  · apply Option.eq_none_iff_forall_ne_some.2
    intro e there
    rw [h.above there here] at free
    cases free

theorem Broadens.extends (h : Broadens d d') : Extends d d' where
  here := h.here
  keeps := h.keeps
  links l t there := by simpa using h.adds l _ there

theorem Broadens.refl (d : Disk) : Broadens d d := ⟨rfl, fun _ _ h => h, fun _ _ h => .inl h⟩

theorem Broadens.trans (h : Broadens d d') (h' : Broadens d' d'') : Broadens d d'' where
  here := h'.here.trans h.here
  keeps l e there := h'.keeps l e (h.keeps l e there)
  adds l e there := by
    rcases h'.adds l e there with there | dir
    · exact h.adds l e there
    · exact .inr dir

/-- Where directories are added, the files are the same. -/
theorem Broadens.file_iff (h : Broadens d d') {content : Bytes} {executable : Bool} :
    d'.entry? l = some (.file content executable) ↔ d.entry? l = some (.file content executable) :=
  ⟨fun there => (h.adds _ _ there).resolve_right (by simp), h.keeps _ _⟩

theorem Extends.trans (h : Extends d d') (h' : Extends d' d'') : Extends d d'' where
  here := h'.here.trans h.here
  keeps l e there := h'.keeps l e (h.keeps l e there)
  links l t there := h.links l t (h'.links l t there)

theorem Extends.ways (h : Extends d d') : Ways d d' where
  here := h.here
  dirs l dir := h.keeps l _ dir
  kept l _ there := h.keeps l _ there
  links := h.links

theorem Leads.extends (h : Leads d f n p ns m l) (ext : Extends d d') : Leads d' f n p ns m l :=
  h.ways ext.ways

/-- Where names lead from a place in a directory is in a directory. -/
theorem Leads.rooted (h : Leads d f n p ns m l) (sound : d.Sound)
    (start : d.entry? p.dropLast = some .directory) : d.entry? l.dropLast = some .directory := by
  induction h with
  | nil => exact start
  | idle _ _ _ ih => exact ih start
  | up dir _ ih =>
    apply ih
    exact sound.rooted _ _ start
  | down dir _ _ _ ih =>
    apply ih
    rwa [List.dropLast_concat]
  | @link _ _ _ _ p _ _ _ target _ dir _ _ _ _ _ ih ih' =>
    apply ih'
    apply ih
    rw [linkStart]
    split
    · rfl
    · exact start
  | stop dir => rwa [List.dropLast_concat]

/-- Where a path begins. -/
def start (d : Disk) (x : Text) : Location := if Path.isAbsolute x then [] else d.here

theorem Sound.start (h : d.Sound) (x : Text) : d.entry? (d.start x) = some .directory := by
  rw [Disk.start]
  split
  · rfl
  · exact h.here

theorem locate_eq_ok_iff : d.locate f x = .ok l ↔
    '\x00' ∉ x ∧ x ≠ [] ∧ x.byteSize ≤ maxPathSize ∧
      ∃ m, Leads d f maxLinks (d.start x) (Path.pieces x) m l := by
  rw [locate, ← walk_eq_ok_iff, Disk.start]
  by_cases nul : '\x00' ∈ x
  · simp [nul]
  by_cases none : x = []
  · simp [none]
  by_cases long : maxPathSize < x.byteSize
  · have not := Nat.not_le.2 long
    simp [nul, none, long, not]
  · have short := Nat.not_lt.1 long
    simp [nul, none, long, short]

theorem entry?_of_ne_nil (h : l ≠ []) : d.entry? l = d.entries.lookup l := by
  cases l with
  | nil => exact absurd rfl h
  | cons => rfl

/-- Only a directory can be the root. -/
theorem ne_root (h : d.entry? l ≠ some .directory) : l ≠ [] := by
  rintro rfl
  exact h rfl

theorem ne_root_of_none (none : d.entry? l = none) : l ≠ [] := by
  rintro rfl
  cases none

theorem mem_entries (h : l ≠ []) (there : d.entry? l = some e) : (l, e) ∈ d.entries := by
  rw [entry?_of_ne_nil h] at there
  obtain ⟨before, after, eq, -⟩ := List.lookup_eq_some_iff.1 there
  simp [eq]

theorem lookup_of_nodup {es : List (Location × Entry)} (nodup : (es.map Prod.fst).Nodup) :
    es.lookup l = some e ↔ (l, e) ∈ es := by
  constructor
  · intro h
    obtain ⟨before, after, rfl, -⟩ := List.lookup_eq_some_iff.1 h
    simp
  · intro h
    obtain ⟨before, after, rfl⟩ := List.append_of_mem h
    refine List.lookup_eq_some_iff.2 ⟨before, after, rfl, fun k hk => ?_⟩
    rw [List.map_append, List.nodup_append] at nodup
    have := nodup.2.2 k.1 (List.mem_map_of_mem hk) l (by simp)
    simpa using this.symm

theorem Sound.entry?_iff (h : d.Sound) (ne : l ≠ []) : d.entry? l = some e ↔ (l, e) ∈ d.entries := by
  rw [entry?_of_ne_nil ne, lookup_of_nodup h.nodup]

theorem lookup_filter (es : List (Location × Entry)) (keeps : Location → Bool) (k : Location) :
    (es.filter fun entry => keeps entry.1).lookup k = if keeps k then es.lookup k else none := by
  induction es with
  | nil => simp
  | cons entry es ih =>
    obtain ⟨l, e⟩ := entry
    by_cases kept : keeps l
    · rw [List.filter_cons_of_pos (by simpa using kept), List.lookup_cons, List.lookup_cons, ih]
      cases here : k == l with
      | false => rfl
      | true =>
        obtain rfl := beq_iff_eq.1 here
        simp only [kept, if_true]
    · rw [List.filter_cons_of_neg (by simpa using kept), ih]
      split
      next keepsK =>
        have other : (k == l) = false := beq_false_of_ne fun same => kept (same ▸ keepsK)
        rw [List.lookup_cons, other]
      · rfl

theorem lookup_filter_ne (es : List (Location × Entry)) (k l : Location) :
    (es.filter (·.1 ≠ l)).lookup k = if k = l then none else es.lookup k := by
  have keeps := lookup_filter es (fun l' => decide (l' ≠ l)) k
  rw [keeps]
  by_cases same : k = l <;> simp [same]

theorem entry?_erase (l k : Location) :
    Disk.entry? (d.erase l) k = if k = l ∧ k ≠ [] then none else d.entry? k := by
  by_cases root : k = []
  · rw [root, if_neg (by simp)]
    rfl
  · rw [entry?_of_ne_nil root, entry?_of_ne_nil root, erase, lookup_filter_ne]
    simp [root]

theorem entry?_eraseTree (l k : Location) :
    Disk.entry? (d.eraseTree l) k = if l <+: k ∧ k ≠ [] then none else d.entry? k := by
  by_cases root : k = []
  · rw [root, if_neg (by simp)]
    rfl
  · rw [entry?_of_ne_nil root, entry?_of_ne_nil root]
    have keeps := lookup_filter d.entries (fun k => !l.isPrefixOf k) k
    refine keeps.trans ?_
    have same : l.isPrefixOf k = decide (l <+: k) := by
      rw [Bool.eq_iff_iff, List.isPrefixOf_iff_prefix, decide_eq_true_iff]
    by_cases within : l <+: k <;> simp only [same, within, root, ne_eq, not_false_eq_true, decide_true,
      decide_false, Bool.not_true, Bool.not_false, Bool.false_eq_true, and_self, and_true, if_true, if_false]

theorem of_entry?_eraseTree {k : Location} (ne : l ≠ []) (there : Disk.entry? (d.eraseTree l) k = some e) :
    d.entry? k = some e ∧ ¬ l <+: k := by
  rw [entry?_eraseTree] at there
  split at there
  · cases there
  next out =>
    refine ⟨there, fun within => out ⟨within, ?_⟩⟩
    rintro rfl
    exact ne (List.prefix_nil.1 within)

theorem entry?_put (ne : l ≠ []) (k : Location) :
    Disk.entry? (d.put l e) k = if k = l then some e else d.entry? k := by
  by_cases root : k = []
  · subst root
    rw [if_neg ne.symm]
    rfl
  · rw [entry?_of_ne_nil root, entry?_of_ne_nil root, put, List.lookup_append, lookup_filter_ne]
    by_cases same : k = l
    · simp [same]
    · have : (k == l) = false := beq_false_of_ne same
      rw [if_neg same, if_neg same, List.lookup_cons, this]
      exact Option.or_none

theorem broadens_put (none : d.entry? l = none) : Broadens d (d.put l .directory) := by
  have ne := ne_root_of_none none
  refine ⟨rfl, fun k e there => ?_, fun k e there => ?_⟩
  · rw [entry?_put ne, if_neg]
    · exact there
    · rintro rfl
      simp [none] at there
  · rw [entry?_put ne] at there
    split at there
    · exact .inr (Option.some.inj there).symm
    · exact .inl there

theorem Sound.put (h : d.Sound) (none : d.entry? l = none)
    (rooted : d.entry? l.dropLast = some .directory) : (d.put l .directory).Sound := by
  have broad := broadens_put none
  have ne := ne_root_of_none none
  refine ⟨?_, fun k e there => ?_, ?_⟩
  · rw [Disk.put, List.map_append]
    refine List.nodup_append.2 ⟨(h.nodup.sublist (List.filter_sublist.map _)), by simp, ?_⟩
    rintro k hk _ hl rfl
    obtain ⟨entry, mem, rfl⟩ := List.mem_map.1 hk
    have out : entry.1 ≠ l := by simpa using (List.mem_filter.1 mem).2
    exact out (by simpa using hl)
  · apply broad.keeps
    rw [entry?_put ne] at there
    split at there
    next same => rwa [same]
    · exact h.rooted k e there
  · exact broad.keeps _ _ h.here

theorem makeDirectory_eq_ok (h : d.makeDirectory x = .ok d') :
    ∃ l, d.locate false (trimSlashes x) = .ok l ∧ d.entry? l = none ∧ d' = d.put l .directory := by
  rw [makeDirectory] at h
  split at h
  · cases h
  split at h
  · cases h
  split at h
  · cases h
  · obtain ⟨l, hl, h⟩ := Except.bind_eq_ok_iff.1 h
    cases there : d.entry? l with
    | some e =>
      simp only [there] at h
      cases h
    | none =>
      simp only [there] at h
      exact ⟨l, hl, there, (Except.ok.inj h).symm⟩

/-- A path that a directory is made at can be looked up, slashes at its end included. -/
theorem fits_of_makeDirectory (h : d.makeDirectory x = .ok d') : '\x00' ∉ x ∧ x.byteSize ≤ maxPathSize := by
  rw [makeDirectory] at h
  split at h
  · cases h
  next nul =>
    split at h
    · cases h
    next short => exact ⟨by simpa using nul, Nat.not_lt.1 short⟩

theorem Sound.rooted_locate (h : d.Sound) (hl : d.locate f x = .ok l) :
    d.entry? l.dropLast = some .directory := by
  obtain ⟨-, -, -, m, leads⟩ := locate_eq_ok_iff.1 hl
  exact leads.rooted h (h.rooted _ _ (h.start x))

/-- Directories are added, and the disk is sound as before. -/
def Deepens (d d' : Disk) : Prop := Broadens d d' ∧ (d.Sound → d'.Sound)

theorem Deepens.refl (d : Disk) : Deepens d d := ⟨.refl d, id⟩

theorem Deepens.trans (h : Deepens d d') (h' : Deepens d' d'') : Deepens d d'' :=
  ⟨h.1.trans h'.1, h'.2 ∘ h.2⟩

theorem deepens_makeDirectory (h : d.makeDirectory x = .ok d') : Deepens d d' := by
  obtain ⟨l, hl, none, rfl⟩ := makeDirectory_eq_ok h
  exact ⟨broadens_put none, fun sound => sound.put none (sound.rooted_locate hl)⟩

/-- Directories are made, each at one of some paths. -/
inductive Paves (xs : List Text) (d : Disk) : Disk → Prop
  | refl : Paves xs d d
  | step {d' d'' : Disk} {x : Text} (before : Paves xs d d') (mem : x ∈ xs)
    (made : d'.makeDirectory x = .ok d'') : Paves xs d d''

variable {xs ys : List Text}

theorem Paves.mono (h : Paves xs d d') (sub : xs ⊆ ys) : Paves ys d d' := by
  induction h with
  | refl => exact .refl
  | step _ mem made ih => exact .step ih (sub mem) made

theorem Paves.deepens (h : Paves xs d d') : Deepens d d' := by
  induction h with
  | refl => exact .refl d
  | step _ _ made ih => exact ih.trans (deepens_makeDirectory made)

/-- What making a chain comes to: those after the first are made, if it needs them, and then the first is made or is
a directory. -/
theorem makeChain_eq_ok (h : d.makeChain (x :: xs) = .ok d') :
    x = [] ∧ d' = d ∨ ∃ d₁, (d₁ = d ∨ d.makeChain xs = .ok d₁) ∧
      (d₁.makeDirectory x = .ok d' ∨ d₁.isDirectory x = true ∧ d' = d₁) := by
  rw [makeChain] at h
  split at h
  next empty => exact .inl ⟨by simpa using empty, (Except.ok.inj h).symm⟩
  · refine .inr ?_
    split at h
    · obtain ⟨d₁, chain, h⟩ := Except.bind_eq_ok_iff.1 h
      refine ⟨d₁, .inr chain, ?_⟩
      cases made : d₁.makeDirectory x with
      | ok =>
        simp only [made] at h
        exact .inl h
      | error =>
        simp only [made] at h
        split at h
        next dir => exact .inr ⟨dir, (Except.ok.inj h).symm⟩
        · cases h
    · refine ⟨d, .inl rfl, ?_⟩
      cases made : d.makeDirectory x with
      | ok =>
        simp only [made] at h
        exact .inl h
      | error =>
        simp only [made] at h
        split at h
        next dir => exact .inr ⟨dir, (Except.ok.inj h).symm⟩
        · cases h

theorem paves_makeChain (h : d.makeChain xs = .ok d') : Paves xs d d' := by
  induction xs generalizing d' with
  | nil => cases h
  | cons x xs ih =>
    rcases makeChain_eq_ok h with ⟨-, rfl⟩ | ⟨d₁, above, here⟩
    · exact .refl
    · have above : Paves (x :: xs) d d₁ := by
        rcases above with rfl | chain
        · exact .refl
        · exact (ih chain).mono (List.subset_cons_self x xs)
      rcases here with made | ⟨-, rfl⟩
      · exact .step above List.mem_cons_self made
      · exact above

theorem paves_failedChain (d : Disk) (xs : List Text) : Paves xs d (d.failedChain xs) := by
  induction xs with
  | nil => exact .refl
  | cons x xs ih =>
    rw [failedChain]
    split
    · split
      next chain => exact (paves_makeChain chain).mono (List.subset_cons_self x xs)
      · exact ih.mono (List.subset_cons_self x xs)
    · exact .refl

theorem deepens_makeChain (h : d.makeChain xs = .ok d') : Deepens d d' := (paves_makeChain h).deepens

theorem deepens_makeDirectories (h : d.makeDirectories x = .ok d') : Deepens d d' :=
  deepens_makeChain h

theorem find?_eq_some : d.find? x = some e ↔ ∃ l, d.locate true x = .ok l ∧ d.entry? l = some e := by
  rw [find?]
  cases d.locate true x <;> simp [Except.toOption]

theorem locate_ways (ways : Ways d d') {f : Bool} (h : d.locate f x = .ok l) :
    d'.locate f x = .ok l := by
  obtain ⟨nul, ne, fits, m, leads⟩ := locate_eq_ok_iff.1 h
  refine locate_eq_ok_iff.2 ⟨nul, ne, fits, m, ?_⟩
  rw [start, ways.here]
  exact leads.ways ways

theorem locate_extends (ext : Extends d d') {f : Bool} (h : d.locate f x = .ok l) :
    d'.locate f x = .ok l :=
  locate_ways ext.ways h

theorem locate_follow (h : d.locate false x = .ok l) (noLink : ∀ t, d.entry? l ≠ some (.link t)) :
    d.locate true x = .ok l := by
  obtain ⟨nul, ne, fits, m, leads⟩ := locate_eq_ok_iff.1 h
  exact locate_eq_ok_iff.2 ⟨nul, ne, fits, m, leads.follow_of_noLink noLink⟩

/-- One of some paths leads to a location. -/
def OnWay (d : Disk) (xs : List Text) (l : Location) : Prop :=
  ∃ x ∈ xs, d.locate false (trimSlashes x) = .ok l

theorem OnWay.extends (h : OnWay d xs l) (ext : Extends d d') : OnWay d' xs l := by
  obtain ⟨x, mem, located⟩ := h
  exact ⟨x, mem, locate_extends ext located⟩

theorem OnWay.mono (h : OnWay d xs l) (sub : xs ⊆ ys) : OnWay d ys l := by
  obtain ⟨x, mem, located⟩ := h
  exact ⟨x, sub mem, located⟩

/-- Only directories are added, where the paths lead. -/
theorem Paves.adds (h : Paves xs d d') (there : d'.entry? l = some e) :
    d.entry? l = some e ∨ e = .directory ∧ OnWay d' xs l := by
  induction h with
  | refl => exact .inl there
  | step before mem made ih =>
    have ext := (deepens_makeDirectory made).1.extends
    obtain ⟨k, located, none, rfl⟩ := makeDirectory_eq_ok made
    have ne := ne_root_of_none none
    rw [entry?_put ne] at there
    split at there
    next same =>
      subst same
      exact .inr ⟨(Option.some.inj there).symm, _, mem, locate_extends ext located⟩
    · exact (ih there).imp_right fun new => ⟨new.1, new.2.extends ext⟩

theorem find?_extends (ext : Extends d d') (h : d.find? x = some e) : d'.find? x = some e := by
  obtain ⟨l, located, there⟩ := find?_eq_some.1 h
  exact find?_eq_some.2 ⟨l, locate_extends ext located, ext.keeps l e there⟩

theorem canonical_eq_ok_iff :
    d.canonical x = .ok l ↔ d.locate true x = .ok l ∧ (d.entry? l).isSome = true := by
  rw [canonical, Except.bind_eq_ok_iff]
  constructor
  · rintro ⟨l, located, h⟩
    cases there : d.entry? l with
    | none => simp [there, bind, Except.bind, throw, throwThe, MonadExceptOf.throw] at h
    | some e =>
      simp only [there, Option.isNone_some] at h
      obtain rfl := Except.ok.inj h
      exact ⟨located, by rw [there]; rfl⟩
  · rintro ⟨located, there⟩
    refine ⟨l, located, ?_⟩
    obtain ⟨e, there⟩ := Option.isSome_iff_exists.1 there
    rw [there]
    rfl

theorem canonical_extends (ext : Extends d d') (h : d.canonical x = .ok l) :
    d'.canonical x = .ok l := by
  obtain ⟨located, there⟩ := canonical_eq_ok_iff.1 h
  obtain ⟨e, there⟩ := Option.isSome_iff_exists.1 there
  refine canonical_eq_ok_iff.2 ⟨locate_extends ext located, ?_⟩
  rw [ext.keeps l e there]
  rfl

theorem isLink_extends (ext : Extends d d') (found : d.canonical x = .ok l) :
    d'.isLink x = d.isLink x := by
  obtain ⟨m, leads⟩ := (locate_eq_ok_iff.1 (canonical_eq_ok_iff.1 found).1).2.2.2
  obtain ⟨k, q, stops⟩ := leads.exists_stop
  obtain ⟨nul, ne, fits, -⟩ := locate_eq_ok_iff.1 (canonical_eq_ok_iff.1 found).1
  have located : d.locate false x = .ok q := locate_eq_ok_iff.2 ⟨nul, ne, fits, k, stops⟩
  rw [isLink, isLink, located, locate_extends ext located]
  simp only [Except.toOption, Option.bind_some]
  cases there : d.entry? q with
  | some e => rw [ext.keeps q e there]
  | none =>
    cases there' : d'.entry? q with
    | none => rfl
    | some e =>
      cases e with
      | link t => simp [ext.links q t there'] at there
      | _ => rfl

theorem start_join {base : Text} (relative : Path.isAbsolute x = false) :
    d.start (Path.join base x) = d.start base := by
  rw [start, start, Path.isAbsolute_join relative]

theorem names_trimSlashes (x : Text) : Path.names (trimSlashes x) = Path.names x := by
  have slash (t : Text) : Path.names (t ++ ['/']) = Path.names t := by
    rw [Path.names_append_slash, show Path.names [] = [] from by decide, List.append_nil]
  have strip (r : Text) : Path.names (r.dropWhile (· = '/')).reverse = Path.names r.reverse := by
    induction r with
    | nil => rfl
    | cons c r ih =>
      by_cases h : c = '/'
      · subst h
        rw [List.dropWhile_cons_of_pos (by simp), ih, List.reverse_cons, slash]
      · rw [List.dropWhile_cons_of_neg (by simpa using h)]
  rw [trimSlashes, strip, List.reverse_reverse]

theorem trimSlashes_isPrefix (x : Text) : trimSlashes x <+: x := by
  rw [trimSlashes, ← List.reverse_suffix, List.reverse_reverse]
  exact List.dropWhile_suffix _

theorem trimSlashes_eq_self (h : Text.endsWith x "/" = false) : trimSlashes x = x := by
  rw [trimSlashes]
  cases rev : x.reverse with
  | nil =>
    rw [List.reverse_eq_nil_iff.1 rev]
    rfl
  | cons c r =>
    have : c ≠ '/' := by
      rintro rfl
      have ends : Text.endsWith x "/" = true := by
        refine List.isSuffixOf_iff_suffix.2 ⟨r.reverse, ?_⟩
        rw [← List.reverse_reverse x, rev, List.reverse_cons]
        rfl
      rw [ends] at h
      cases h
    rw [List.dropWhile_cons_of_neg (by simpa using this), ← rev, List.reverse_reverse]

/-- Where a directory has been made, there is one, however many slashes end its path. -/
theorem isDirectory_of_makeDirectory (made : d.makeDirectory x = .ok d') : d'.isDirectory x = true := by
  obtain ⟨l, located, none, rfl⟩ := makeDirectory_eq_ok made
  obtain ⟨nul, fits⟩ := fits_of_makeDirectory made
  have root := ne_root_of_none none
  have dir : Disk.entry? (d.put l .directory) l = some .directory := by rw [entry?_put root, if_pos rfl]
  obtain ⟨-, trimmed, -, m, leads⟩ := locate_eq_ok_iff.1 located
  have front := trimSlashes_isPrefix x
  have ne : x ≠ [] := by
    rintro rfl
    exact trimmed (List.prefix_nil.1 front)
  have leads := ((leads.follow none).leading).extends (broadens_put none).extends
  rw [← Path.names_eq, names_trimSlashes, Path.names_eq, start, Path.isAbsolute_of_isPrefix front trimmed] at leads
  have located : (d.put l .directory).locate true x = .ok l :=
    locate_eq_ok_iff.2 ⟨nul, ne, fits, m, leads.of_leading dir⟩
  rw [isDirectory, decide_eq_true_eq]
  exact find?_eq_some.2 ⟨l, located, dir⟩

theorem isDirectory_of_makeDirectories (made : d.makeDirectories x = .ok d') (ne : x ≠ []) :
    d'.isDirectory x = true := by
  rcases makeChain_eq_ok made with ⟨empty, -⟩ | ⟨d₁, -, made | ⟨dir, rfl⟩⟩
  · exact absurd empty ne
  · exact isDirectory_of_makeDirectory made
  · exact dir

/-- In a directory that has been made, nothing is there yet, and a name leads to its place in it. -/
theorem Sound.free_in_made (sound : d.Sound) (made : d.makeDirectory x = .ok d') {name : Text}
    (plain : '/' ∉ name) (proper : ¬ (name = [] ∨ name = ".")) (inside : name ≠ "..")
    (located : d'.locate true (Path.join x name) = .ok l) : d'.entry? l = none := by
  obtain ⟨r, at_, none, rfl⟩ := makeDirectory_eq_ok made
  have ext := (broadens_put none).extends
  have relative := Path.isAbsolute_of_not_mem plain
  obtain ⟨-, -, -, m, leads⟩ := locate_eq_ok_iff.1 located
  obtain ⟨start, pieces, names⟩ := Path.exists_pieces_join x relative
  rw [pieces, start_join relative, Path.pieces_of_not_mem plain] at leads
  obtain ⟨n, q, first, last⟩ := leads.split (.inl rfl)
  obtain ⟨-, ne, -, k, known⟩ := locate_eq_ok_iff.1 at_
  have known := ((known.follow none).leading.extends ext).walk
  rw [← Path.names_eq, names_trimSlashes, ← names, Disk.start,
    Path.isAbsolute_of_isPrefix (trimSlashes_isPrefix x) ne] at known
  obtain rfl : q = r := Except.ok.inj (first.leading.walk.symm.trans known)
  have empty : Disk.entry? (d.put q .directory) (q ++ [name]) = Option.none := by
    have root := ne_root_of_none none
    rw [entry?_put root, if_neg (by simp)]
    exact sound.nothing_below none [name]
  rcases last.last_cases proper inside with ⟨rfl, -⟩ | ⟨-, _, _, -, there, -⟩
  · exact empty
  · simp [there] at empty

end FloatFlattening.Disk
