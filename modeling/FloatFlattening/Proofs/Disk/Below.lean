import FloatFlattening.Proofs.Disk.Copy
/-!
Names that stay below a directory. On a tree of files, the path of an entry leads to it without a
link, and so do names that only go down and back up.
-/

namespace FloatFlattening.Disk

/-- A tree of files: its names can be written in a path. -/
structure Tree (d : Disk) : Prop extends Sound d where
  named : ∀ l e, d.entry? l = some e → ∀ name ∈ l, IsName name ∧ '/' ∉ name ∧ '\x00' ∉ name

variable {d d' : Disk} {f : Bool} {n m k : Nat} {p q l top below last : Location} {ns : List Text}
  {x name target : Text} {e : Entry}

instance : Decidable (IsName name) :=
  decidable_of_iff (¬ (name = [] ∨ name = ".") ∧ name ≠ ".." ∧ name.byteSize ≤ maxNameSize)
    ⟨fun h => ⟨h.1, h.2.1, h.2.2⟩, fun h => ⟨h.proper, h.inside, h.fits⟩⟩

/-- Whether a disk is a tree can be told from its entries. -/
theorem tree_iff : d.Tree ↔ (d.entries.map Prod.fst).Nodup ∧
    d.entry? d.here = some .directory ∧ ∀ entry ∈ d.entries, entry.1 ≠ [] →
      d.entry? entry.1.dropLast = some .directory ∧
        ∀ name ∈ entry.1, IsName name ∧ '/' ∉ name ∧ '\x00' ∉ name := by
  constructor
  · intro h
    refine ⟨h.nodup, h.here, ?_⟩
    rintro ⟨l, e⟩ mem ne
    have there := (h.entry?_iff ne).2 mem
    exact ⟨h.rooted l e there, h.named l e there⟩
  · rintro ⟨nodup, here, each⟩
    refine ⟨⟨nodup, fun l e there => ?_, here⟩, fun l e there => ?_⟩
    · by_cases root : l = []
      · subst root
        rfl
      · exact (each _ (mem_entries root there) root).1
    · by_cases root : l = []
      · subst root
        simp
      · exact (each _ (mem_entries root there) root).2

instance : Decidable d.Tree := decidable_of_iff _ tree_iff.symm

/-! The path of a location. -/

theorem pieces_path (ne : l ≠ []) (plain : ∀ name ∈ l, '/' ∉ name) :
    Path.pieces l.path = [] :: l := by
  have names : Path.pieces (Text.joinWith "/" l) = l := List.splitOn_intercalate '/' plain ne
  have path : l.path = [] ++ '/' :: Text.joinWith "/" l := rfl
  rw [path, Path.pieces_append_slash, names]
  rfl

theorem not_mem_path {c : Char} (slash : c ≠ '/') (plain : ∀ name ∈ l, c ∉ name) : c ∉ l.path := by
  have names : c ∉ Text.joinWith "/" l := by
    rw [Text.joinWith]
    induction l with
    | nil => simp
    | cons name l ih =>
      cases l with
      | nil => simpa using plain
      | cons next l =>
        have rest := ih fun name mem => plain name (List.mem_cons_of_mem _ mem)
        have first := plain name List.mem_cons_self
        rw [List.intercalate_cons_cons]
        simpa [first, slash] using rest
  simpa [Location.path, slash] using names

theorem Tree.leads_down (h : d.Tree) (dir : d.entry? (p ++ below) = some .directory) (n : Nat) :
    Leads d true n p below n (p ++ below) := by
  induction below using List.reverseRecOn with
  | nil =>
    rw [List.append_nil]
    exact .nil
  | append_singleton below name ih =>
    rw [← List.append_assoc] at dir ⊢
    have above := h.rooted _ _ dir
    rw [List.dropLast_concat] at above
    have isName := (h.named _ _ dir name (by simp)).1
    have noLink (t : Text) : d.entry? (p ++ below ++ [name]) ≠ some (.link t) := by
      rw [dir]
      simp
    exact (ih above).append (.down above isName noLink .nil) (.inl rfl)

theorem Tree.locate_path (h : d.Tree) (there : d.entry? l = some e) (ne : l ≠ []) :
    d.locate true l.path = .ok q ↔
      l.path.byteSize ≤ maxPathSize ∧ ∃ m, Leads d true maxLinks [] l m q := by
  have nul : '\x00' ∉ l.path :=
    not_mem_path (by decide) fun name mem => (h.named _ _ there name mem).2.2
  have pieces := pieces_path ne fun name mem => (h.named _ _ there name mem).2.1
  have some : l.path ≠ [] := by simp [Location.path]
  have start : d.start l.path = [] := rfl
  rw [locate_eq_ok_iff, pieces, start]
  constructor
  · rintro ⟨-, -, fits, m, leads⟩
    cases leads with
    | idle _ _ then_ => exact ⟨fits, m, then_⟩
    | down _ isName => exact absurd (.inl rfl) isName.proper
    | link _ isName => exact absurd (.inl rfl) isName.proper
  · rintro ⟨fits, m, leads⟩
    exact ⟨nul, some, fits, m, .idle rfl (.inl rfl) leads⟩

/-- From the root, a link leads where its target leads from beside it. -/
theorem Tree.locate_link (h : d.Tree) (there : d.entry? (p ++ [name]) = some (.link target))
    (first : Leads d true n (linkStart p target) (Path.pieces target) m q) (links : n < maxLinks)
    (fits : (Location.path (p ++ [name])).byteSize ≤ maxPathSize) :
    d.locate true (Location.path (p ++ [name])) = .ok q := by
  rw [h.locate_path there (by simp)]
  refine ⟨fits, m + (maxLinks - (n + 1)), ?_⟩
  have above := h.rooted _ _ there
  rw [List.dropLast_concat] at above
  have isName := (h.named _ _ there name (by simp)).1
  have down : Leads d true maxLinks [] p maxLinks p := h.leads_down (p := []) above maxLinks
  have more := first.mono (maxLinks - (n + 1))
  have budget : maxLinks = n + (maxLinks - (n + 1)) + 1 := by omega
  refine down.append ?_ (.inl rfl)
  rw [budget]
  have same : n + (maxLinks - (n + 1)) + 1 - (n + 1) = maxLinks - (n + 1) := by omega
  rw [same]
  exact .link above isName there (.inl rfl) more .nil

/-! Names that lead from one place below a directory to another. -/

/-- Names go down, and up again, in directories below `top`, past no link but for the last. -/
inductive Stays (d : Disk) (top : Location) : Location → List Text → Location → Prop
  | nil {below : Location} : Stays d top below [] below
  | idle {below last : Location} {name : Text} {rest : List Text}
      (dir : d.entry? (top ++ below) = some .directory) (idle : name = [] ∨ name = ".")
      (then_ : Stays d top below rest last) : Stays d top below (name :: rest) last
  | up {below last : Location} {rest : List Text}
      (dir : d.entry? (top ++ below) = some .directory) (ne : below ≠ [])
      (then_ : Stays d top below.dropLast rest last) : Stays d top below ("..".toList :: rest) last
  | down {below last : Location} {name : Text} {rest : List Text}
      (dir : d.entry? (top ++ below) = some .directory) (isName : IsName name)
      (then_ : Stays d top (below ++ [name]) rest last) : Stays d top below (name :: rest) last

theorem Stays.leads (h : Stays d top below ns last)
    (noLink : ∀ t, d.entry? (top ++ last) ≠ some (.link t)) (n : Nat) :
    Leads d true n (top ++ below) ns n (top ++ last) := by
  induction h with
  | nil => exact .nil
  | idle dir idle _ ih => exact .idle dir idle (ih noLink)
  | up dir ne _ ih =>
    refine .up dir ?_
    rw [List.dropLast_append_of_ne_nil ne]
    exact ih noLink
  | @down below last name rest dir isName then_ ih =>
    refine .down dir isName ?_ ?_
    · rw [List.append_assoc]
      cases then_ with
      | nil => exact noLink
      | idle dir | up dir | down dir => simp [dir]
    · rw [List.append_assoc]
      exact ih noLink

/-- Whether names stay below a directory, in places that are not `skipped`, and pass no link but for
the last. They go up only from directories that are there. -/
inductive Inward (d : Disk) (top : Location) (skipped : Location → Bool) :
    Location → List Text → Prop
  | nil {below : Location} : Inward d top skipped below []
  | idle {below : Location} {name : Text} {rest : List Text} (idle : name = [] ∨ name = ".")
      (then_ : Inward d top skipped below rest) : Inward d top skipped below (name :: rest)
  | up {below : Location} {rest : List Text} (dir : d.entry? (top ++ below) = some .directory)
      (ne : below ≠ []) (then_ : Inward d top skipped below.dropLast rest) :
      Inward d top skipped below ("..".toList :: rest)
  | down {below : Location} {name : Text} {rest : List Text} (proper : ¬ (name = [] ∨ name = "."))
      (inside : name ≠ "..") (kept : skipped (below ++ [name]) = false)
      (last : ∀ t, d.entry? (top ++ (below ++ [name])) = some (.link t) → rest = [])
      (then_ : Inward d top skipped (below ++ [name]) rest) :
      Inward d top skipped below (name :: rest)

/-- Where names lead that stay below a directory: to a place below it, or on from there by a link. -/
theorem Inward.stays {skipped : Location → Bool} (h : Inward d top skipped below ns)
    (leads : Leads d true n (top ++ below) ns m l) :
    ∃ last, Stays d top below ns last ∧ (l = top ++ last ∨
      ∃ p name target k, top ++ last = p ++ [name] ∧ d.entry? (top ++ last) = some (.link target) ∧
        k < n ∧ Leads d true k (linkStart p target) (Path.pieces target) m l) := by
  induction h generalizing m l with
  | nil =>
    cases leads
    exact ⟨_, .nil, .inl rfl⟩
  | idle idle _ ih =>
    cases leads with
    | idle dir _ then_ =>
      obtain ⟨last, stays, ends⟩ := ih then_
      exact ⟨last, .idle dir idle stays, ends⟩
    | up => simp at idle
    | down _ isName | link _ isName => exact absurd idle isName.proper
  | up _ ne _ ih =>
    cases leads with
    | idle _ idle => simp at idle
    | up dir then_ =>
      rw [List.dropLast_append_of_ne_nil ne] at then_
      obtain ⟨last, stays, ends⟩ := ih then_
      exact ⟨last, .up dir ne stays, ends⟩
    | down _ isName | link _ isName => exact absurd rfl isName.inside
  | @down below name rest proper inside _ only _ ih =>
    cases leads with
    | idle _ idle => exact absurd idle proper
    | up => exact absurd rfl inside
    | down dir isName _ then_ =>
      rw [List.append_assoc] at then_
      obtain ⟨last, stays, ends⟩ := ih then_
      exact ⟨last, .down dir isName stays, ends⟩
    | link dir isName there _ first then_ =>
      rw [List.append_assoc] at there
      obtain rfl := only _ there
      cases then_
      refine ⟨below ++ [name], .down dir isName .nil, .inr ⟨top ++ below, name, _, _, ?_, there,
        Nat.lt_succ_self _, first⟩⟩
      rw [List.append_assoc]

end FloatFlattening.Disk
