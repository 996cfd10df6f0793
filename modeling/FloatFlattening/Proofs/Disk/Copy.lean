import FloatFlattening.Proofs.Disk.Change
import Mathlib.Data.List.TakeDrop
/-!
What is in the copy of a tree: the entries of the tree that are not skipped, with links exchanged
for the files that they lead to.
-/

namespace FloatFlattening.Disk

variable {d d' : Disk} {l source target below : Location} {excluded : List Location} {e : Entry}

theorem copied?_ne_link (t : Text) : d.copied? l e ≠ some (.link t) := by
  cases e with
  | link => rw [copied?]; split <;> simp
  | _ => simp [copied?]

/-- A copy is of a file that a link leads to, or the entry itself. -/
theorem copied?_cases {e' : Entry} (h : d.copied? l e = some e') :
    (∃ content executable t, e' = .file content executable ∧ e = .link t ∧ d.find? l.path = some e') ∨
      e = e' ∧ ∀ t, e' ≠ .link t := by
  cases e with
  | link t =>
    rw [copied?] at h
    split at h
    next content executable leadsTo =>
      obtain rfl := Option.some.inj h
      exact .inl ⟨content, executable, t, rfl, rfl, leadsTo⟩
    next => cases h
  | directory | file | device | program => exact .inr ⟨Option.some.inj h, fun t eq => copied?_ne_link t (eq ▸ h)⟩

theorem mem_copies {k : Location} : (k, e) ∈ d.copies source excluded target ↔
    ∃ below e₀, (source ++ below, e₀) ∈ d.entries ∧ below ≠ [] ∧
      d.isSkipped source excluded below = false ∧ d.copied? (source ++ below) e₀ = some e ∧
        k = target ++ below := by
  rw [copies, List.mem_filterMap]
  constructor
  · rintro ⟨⟨l, e₀⟩, mem, h⟩
    simp only at h
    split at h
    next copied =>
      obtain ⟨below, rfl⟩ := List.isPrefixOf_iff_prefix.1 copied.1
      rw [List.drop_left] at h copied
      obtain ⟨e', eq, pair⟩ := Option.map_eq_some_iff.1 h
      cases pair
      exact ⟨below, e₀, mem, copied.2.1, by simpa using copied.2.2, eq, rfl⟩
    · cases h
  · rintro ⟨below, e₀, mem, ne, kept, eq, rfl⟩
    refine ⟨(source ++ below, e₀), mem, ?_⟩
    have inside : source.isPrefixOf (source ++ below) := List.isPrefixOf_iff_prefix.2 ⟨below, rfl⟩
    simp only [List.drop_left, inside, ne, kept, ne_eq, not_false_eq_true, Bool.not_false, and_self,
      if_true, eq, Option.map_some]

theorem nodup_copies (nodup : (d.entries.map Prod.fst).Nodup) :
    ((d.copies source excluded target).map Prod.fst).Nodup := by
  rw [copies, List.Nodup, List.pairwise_map]
  refine List.Pairwise.filterMap _ ?_ (List.pairwise_map.1 nodup)
  rintro ⟨l, e⟩ ⟨l', e'⟩ apart ⟨k, c⟩ hk ⟨k', c'⟩ hk'
  simp only at hk hk'
  split at hk
  next copied =>
    split at hk'
    next copied' =>
      obtain ⟨_, -, pair⟩ := Option.map_eq_some_iff.1 hk
      obtain ⟨_, -, pair'⟩ := Option.map_eq_some_iff.1 hk'
      cases pair
      cases pair'
      obtain ⟨below, rfl⟩ := List.isPrefixOf_iff_prefix.1 copied.1
      obtain ⟨below', rfl⟩ := List.isPrefixOf_iff_prefix.1 copied'.1
      rw [List.drop_left, List.drop_left]
      intro same
      exact apart (by rw [List.append_cancel_left same])
    · cases hk'
  · cases hk

theorem entry?_copyTree (sound : d.Sound) (free : d.entry? target = none) :
    Disk.entry? (d.copyTree source excluded target) (target ++ below) = some e ↔
      below = [] ∧ e = .directory ∨ below ≠ [] ∧ d.isSkipped source excluded below = false ∧
        ∃ e₀, d.entry? (source ++ below) = some e₀ ∧ d.copied? (source ++ below) e₀ = some e := by
  have ne := ne_root_of_none free
  have new : d.entries.lookup (target ++ below) = none := by
    rw [← entry?_of_ne_nil (by simp [ne])]
    exact sound.nothing_below free below
  rw [entry?_of_ne_nil (by simp [ne]), copyTree, List.lookup_append, new, Option.none_or,
    List.lookup_cons]
  by_cases here : below = []
  · subst here
    have : (target ++ [] == target) = true := by simp
    simp only [this, true_and, ne_eq, not_true_eq_false, false_and, or_false, Option.some.injEq]
    exact eq_comm
  · have : (target ++ below == target) = false := beq_false_of_ne (by simpa using here)
    simp only [this, here, false_and, ne_eq, not_false_eq_true, true_and, false_or]
    rw [lookup_of_nodup (nodup_copies sound.nodup), mem_copies]
    constructor
    · rintro ⟨below', e₀, mem, -, kept, copied, same⟩
      obtain rfl := List.append_cancel_left same
      exact ⟨kept, e₀, (sound.entry?_iff (by simp [here])).2 mem, copied⟩
    · rintro ⟨kept, e₀, there, copied⟩
      exact ⟨below, e₀, mem_entries (by simp [here]) there, here, kept, copied, rfl⟩

theorem entry?_copyTree_top (sound : d.Sound) (free : d.entry? target = none) :
    Disk.entry? (d.copyTree source excluded target) target = some .directory := by
  have top : Disk.entry? (d.copyTree source excluded target) (target ++ []) = some .directory :=
    (entry?_copyTree sound free).2 (.inl ⟨rfl, rfl⟩)
  rwa [List.append_nil] at top

theorem extends_copyTree (ne : target ≠ []) : Extends d (d.copyTree source excluded target) := by
  refine ⟨rfl, fun l e there => ?_, fun l t there => ?_⟩
  · cases l with
    | nil => exact there
    | cons name l =>
      rw [entry?_of_ne_nil (by simp)] at there ⊢
      rw [copyTree, List.lookup_append, there, Option.some_or]
  · cases l with
    | nil => exact there
    | cons name l =>
      rw [entry?_of_ne_nil (by simp)] at there ⊢
      rw [copyTree, List.lookup_append] at there
      rcases Option.or_eq_some_iff.1 there with there | ⟨-, there⟩
      · exact there
      · obtain ⟨before, after, eq, -⟩ := List.lookup_eq_some_iff.1 there
        have mem : (name :: l, .link t) ∈ (target, .directory) :: d.copies source excluded target := by
          simp [eq]
        rcases List.mem_cons.1 mem with same | mem
        · cases same
        · obtain ⟨_, _, _, -, -, copied, -⟩ := mem_copies.1 mem
          exact absurd copied (copied?_ne_link t)

theorem entry?_copyTree_cases (h : Disk.entry? (d.copyTree source excluded target) l = some e) :
    d.entry? l = some e ∨ target <+: l := by
  by_cases root : l = []
  · subst root
    exact .inl h
  · rw [entry?_of_ne_nil root, copyTree, List.lookup_append] at h
    rcases Option.or_eq_some_iff.1 h with h | ⟨-, h⟩
    · exact .inl (by rwa [entry?_of_ne_nil root])
    · obtain ⟨before, after, eq, -⟩ := List.lookup_eq_some_iff.1 h
      have mem : (l, e) ∈ (target, .directory) :: d.copies source excluded target := by simp [eq]
      rcases List.mem_cons.1 mem with same | mem
      · cases same
        exact .inr List.prefix_rfl
      · obtain ⟨below, _, -, -, -, -, rfl⟩ := mem_copies.1 mem
        exact .inr (List.prefix_append _ _)

theorem isSkipped_eq_false : d.isSkipped source excluded below = false ↔
    ∀ k < below.length, d.entry? (source ++ below.take (k + 1)) = some .directory →
      (source ++ below.take (k + 1)).getLast?.any (· ∈ skippedNames) = false ∧
        source ++ below.take (k + 1) ∉ excluded := by
  rw [isSkipped, List.any_eq_false]
  simp

theorem isSkipped_dropLast (h : d.isSkipped source excluded below = false) :
    d.isSkipped source excluded below.dropLast = false := by
  rw [isSkipped_eq_false] at h ⊢
  intro k hk
  rw [List.length_dropLast] at hk
  have same : below.dropLast.take (k + 1) = below.take (k + 1) := by
    rw [List.dropLast_eq_take, List.take_take, Nat.min_eq_left (by omega)]
  rw [same]
  exact h k (by omega)

theorem isSkipped_extends (ext : Extends d d') {excluded' : List Location}
    (less : excluded ⊆ excluded') (h : d'.isSkipped source excluded' below = false) :
    d.isSkipped source excluded below = false := by
  rw [isSkipped_eq_false] at h ⊢
  intro k hk dir
  obtain ⟨name, out⟩ := h k hk (ext.keeps _ _ dir)
  exact ⟨name, fun mem => out (less mem)⟩

/-- What copying a directory that is given as a link comes to: nothing, or the copy of the directory without the names
before the first directory that is copied, none of which is a file. -/
theorem copyLinked_eq_ok (h : d.copyLinked source excluded target = .ok d') :
    d' = d ∨ ∃ names : List Text,
      (∀ name ∈ names,
        (d.entry? (source ++ [name]) = some .directory → d.isSkipped source excluded [name] = true) ∧
          ∀ content executable, d.entry? (source ++ [name]) ≠ some (.file content executable)) ∧
        d' = names.foldl (fun d name => d.erase (target ++ [name])) (d.copyTree source excluded target) := by
  rw [copyLinked] at h
  split at h
  next before after halves =>
  dsimp only at h
  rw [List.span_eq_takeWhile_dropWhile] at halves
  obtain ⟨rfl, rfl⟩ := Prod.mk.inj halves
  split at h
  · cases h
  · exact .inl (Except.ok.inj h).symm
  next noFile _ =>
    refine .inr ⟨_, fun name mem => ⟨fun dir => ?_, fun content executable file => ?_⟩, (Except.ok.inj h).symm⟩
    · have front := List.mem_takeWhile_imp mem
      simpa [dir] using front
    · have noFile := List.find?_eq_none.1 noFile name mem
      simp [file] at noFile

theorem entry?_foldl_erase (d : Disk) (names : List Text) (l : Location) :
    Disk.entry? (names.foldl (fun d name => d.erase (target ++ [name])) d) l =
      if ∃ name ∈ names, l = target ++ [name] then none else d.entry? l := by
  induction names generalizing d with
  | nil => simp
  | cons name names ih =>
    rw [List.foldl_cons, ih, entry?_erase]
    by_cases first : l = target ++ [name]
    · simp [first]
    · simp [first]

end FloatFlattening.Disk
