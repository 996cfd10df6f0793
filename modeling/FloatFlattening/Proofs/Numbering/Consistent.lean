import FloatFlattening.Proofs.Numbering.Reach
import Mathlib.Data.List.Range
/-!
The invariant of a numbering: however it has come about, its labels can be found by their ids, they
are counted through within each kind, and what they refer to is there before them.
-/

namespace FloatFlattening

theorem Panel.letter?_lt {i j : Nat} {x y : Char} (hi : letter? i = some x) (hj : letter? j = some y)
    (h : i < j) : x < y := by
  have last : j < maxCount := by
    by_contra full
    rw [letter?_eq_none_iff.2 (by omega)] at hj
    cases hj
  have ordered : ∀ j < maxCount, ∀ i < j,
      Char.ofNat ('a'.toNat + i) < Char.ofNat ('a'.toNat + j) := by decide
  rw [letter?, if_pos last, Option.some.injEq] at hj
  rw [letter?, if_pos (h.trans last), Option.some.injEq] at hi
  rw [← hi, ← hj]
  exact ordered j last i h

/-- What a label refers to is among the labels before it. -/
structure Label.Follows (before : List Label) (l : Label) : Prop where
  lettered : l.letter = none ↔ l.kind ≠ .panel
  parent : l.kind = .panel → l.aliasOf = none →
    ∃ f ∈ before, l.parent = some f.id ∧ f.kind = .figure ∧ l.index = f.index
  target : ∀ id, l.aliasOf = some id →
    ∃ l' ∈ before, l'.id = id ∧ l.tag = l'.tag ∧ l.parent = l'.parent

namespace Numbering

/-- The labels of a kind that are not further names. -/
def own (n : Numbering) (kind : Label.Kind) : List Label :=
  n.labels.filter fun l => l.kind = kind ∧ l.aliasOf = none

structure Consistent (n : Numbering) : Prop where
  nodup : n.ids.Nodup
  get? : ∀ id l, n.get? id = some l ↔ l ∈ n.labels ∧ l.id = id
  indices : ∀ kind ≠ .panel, (n.own kind).map Label.index = List.range' 1 (n.own kind).length
  follows : ∀ before l after, n.labels = before ++ l :: after → l.Follows before
  letters : ∀ figure, ∃ xs : List Char,
    (n.children figure).map Label.letter = xs.map some ∧ xs.Pairwise (· < ·)

/-- What every change of a numbering preserves. The letters of a figure's panels come from seats at
the figure, and a later letter from a later seat. -/
structure Invariant (n : Numbering) : Prop where
  nodup : n.ids.Nodup
  indices : ∀ kind ≠ .panel, (n.own kind).map Label.index = List.range' 1 (n.own kind).length
  follows : ∀ before l after, n.labels = before ++ l :: after → l.Follows before
  seated : ∀ figure, ∃ seats : List Nat,
    (n.children figure).map Label.letter = seats.map Panel.letter? ∧ seats.Pairwise (· < ·) ∧
      ∀ i ∈ seats, i < n.seats.count figure ∧ i < Panel.maxCount

variable {n n' : Numbering} {id figure target : Text} {kind : Label.Kind} {l : Label}

theorem mem_own : l ∈ n.own kind ↔ l ∈ n.labels ∧ l.kind = kind ∧ l.aliasOf = none := by
  simp [own]

theorem mem_children : l ∈ n.children figure ↔
    l ∈ n.labels ∧ l.kind = .panel ∧ l.aliasOf = none ∧ l.parent = some figure := by
  simp [children]

theorem get?_eq_some_iff (nodup : n.ids.Nodup) : n.get? id = some l ↔ l ∈ n.labels ∧ l.id = id := by
  refine ⟨mem_of_get?, ?_⟩
  rintro ⟨hl, rfl⟩
  cases found : n.get? l.id with
  | none => exact absurd (List.mem_map_of_mem hl) (get?_eq_none_iff.1 found)
  | some l' =>
    obtain ⟨hl', eq⟩ := mem_of_get? found
    rw [List.inj_on_of_nodup_map nodup hl' hl eq]

theorem Invariant.consistent (h : n.Invariant) : n.Consistent where
  nodup := h.nodup
  get? _ _ := get?_eq_some_iff h.nodup
  indices := h.indices
  follows := h.follows
  letters figure := by
    obtain ⟨seats, eq, sorted, few⟩ := h.seated figure
    have lettered : ∀ i ∈ seats, ∃ x, Panel.letter? i = some x := by
      intro i hi
      rw [← Option.isSome_iff_exists, Option.isSome_iff_ne_none, ne_eq, Panel.letter?_eq_none_iff]
      have := (few i hi).2
      omega
    clear few
    rw [eq]
    clear eq
    induction seats with
    | nil => exact ⟨[], rfl, .nil⟩
    | cons i seats ih =>
      obtain ⟨x, hx⟩ := lettered i (by simp)
      obtain ⟨xs, eq, increasing⟩ := ih sorted.of_cons fun j hj => lettered j (by simp [hj])
      refine ⟨x :: xs, by rw [List.map_cons, eq, hx, List.map_cons], ?_⟩
      refine List.pairwise_cons.2 ⟨fun y hy => ?_, increasing⟩
      have mem : some y ∈ seats.map Panel.letter? := eq ▸ List.mem_map_of_mem hy
      obtain ⟨j, hj, hy⟩ := List.mem_map.1 mem
      exact Panel.letter?_lt hx hy (List.rel_of_pairwise_cons sorted hj)

theorem invariant_empty : empty.Invariant where
  nodup := .nil
  indices _ _ := rfl
  follows before l after eq := by simp [empty] at eq
  seated _ := ⟨[], rfl, .nil, by simp⟩

theorem nextIndex_eq (n : Numbering) (kind : Label.Kind) :
    n.nextIndex kind = (n.own kind).length + 1 := by
  rw [nextIndex, own, List.countP_eq_length_filter]

namespace Invariant

theorem follows_of_mem (h : n.Invariant) (hl : l ∈ n.labels) : ∃ before, before ⊆ n.labels ∧ l.Follows before := by
  obtain ⟨before, after, eq⟩ := List.append_of_mem hl
  refine ⟨before, ?_, h.follows before l after eq⟩
  rw [eq]
  exact List.subset_append_left _ _

theorem nodup_add (h : n.Invariant) (new : l.id ∉ n.ids) : ((n.labels ++ [l]).map Label.id).Nodup := by
  simpa [ids] using List.Nodup.concat new h.nodup

theorem follows_add (h : n.Invariant) (hl : l.Follows n.labels) :
    ∀ before l' after, n.labels ++ [l] = before ++ l' :: after → l'.Follows before := by
  intro before l' after eq
  rcases List.eq_nil_or_concat after with rfl | ⟨after, last, rfl⟩
  · obtain ⟨rfl, last⟩ := List.append_inj' eq rfl
    obtain rfl := List.singleton_inj.1 last
    exact hl
  · have eq : n.labels ++ [l] = (before ++ l' :: after) ++ [last] := by simpa using eq
    obtain ⟨eq, -⟩ := List.append_inj' eq rfl
    exact h.follows before l' after eq

theorem indices_add (h : n.Invariant) (counted : l.kind ≠ .panel → l.aliasOf = none →
    l.index = n.nextIndex l.kind) {seats : List Text} : ∀ kind ≠ .panel,
      (own ⟨n.labels ++ [l], seats⟩ kind).map Label.index =
        List.range' 1 (own ⟨n.labels ++ [l], seats⟩ kind).length := by
  intro kind outside
  have before : (n.labels.filter fun l => l.kind = kind ∧ l.aliasOf = none) = n.own kind := rfl
  rw [own, List.filter_append, before, List.map_append, h.indices kind outside]
  by_cases own : l.kind = kind ∧ l.aliasOf = none
  · obtain ⟨rfl, none⟩ := own
    rw [List.filter_cons_of_pos (by simp [none]), List.filter_nil, List.length_append,
      List.length_singleton, List.range'_concat, List.map_singleton, counted outside none,
      nextIndex_eq]
    simp [Nat.add_comm]
  · rw [List.filter_cons_of_neg (by simpa using own), List.filter_nil]
    simp

/-- The seats of a figure when a label is added that is no panel of it. -/
theorem seated_add (h : n.Invariant) {seats : List Text} (hs : n.seats <+: seats)
    (other : ¬ (l.kind = .panel ∧ l.aliasOf = none ∧ l.parent = some figure)) :
    ∃ is : List Nat, (children ⟨n.labels ++ [l], seats⟩ figure).map Label.letter =
        is.map Panel.letter? ∧ is.Pairwise (· < ·) ∧
      ∀ i ∈ is, i < seats.count figure ∧ i < Panel.maxCount := by
  obtain ⟨is, eq, sorted, few⟩ := h.seated figure
  refine ⟨is, ?_, sorted, fun i hi => ⟨(few i hi).1.trans_le ?_, (few i hi).2⟩⟩
  · rw [← eq, children, children, List.filter_append,
      List.filter_cons_of_neg (by simpa using other), List.filter_nil, List.append_nil]
  · exact hs.sublist.count_le figure

theorem step (h : n.Invariant) (step : Step n n') : n'.Invariant := by
  cases step with
  | own new outside =>
    refine ⟨h.nodup_add new, h.indices_add (fun _ _ => rfl), h.follows_add ?_, fun _ => ?_⟩
    · exact ⟨by simpa using outside, fun panel => absurd panel outside, by simp⟩
    · exact h.seated_add List.prefix_rfl fun panel => outside panel.1
  | seat found isFigure =>
    refine ⟨h.nodup, h.indices, h.follows, fun figure => ?_⟩
    obtain ⟨is, eq, sorted, few⟩ := h.seated figure
    refine ⟨is, eq, sorted, fun i hi => ⟨(few i hi).1.trans_le ?_, (few i hi).2⟩⟩
    exact (List.sublist_append_left _ _).count_le figure
  | @panel id at' line f x new found isFigure letter =>
    obtain ⟨hf, rfl⟩ := mem_of_get? found
    refine ⟨h.nodup_add new, h.indices_add (by simp), h.follows_add ?_, fun figure => ?_⟩
    · exact ⟨by simp, fun _ _ => ⟨f, hf, rfl, isFigure, rfl⟩, by simp⟩
    by_cases here : f.id = figure
    · subst here
      obtain ⟨is, eq, sorted, few⟩ := h.seated f.id
      -- The new panel sits behind all that are at the figure.
      refine ⟨is ++ [n.seats.count f.id], ?_, ?_, ?_⟩
      · have before : (n.labels.filter fun l => l.kind = .panel ∧ l.aliasOf = none ∧
            l.parent = some f.id) = n.children f.id := rfl
        rw [children, List.filter_append, before, List.map_append, eq,
          List.filter_cons_of_pos (by simp), List.map_append]
        simp [letter]
      · refine List.pairwise_append.2 ⟨sorted, List.pairwise_singleton _ _, fun i hi j hj => ?_⟩
        obtain rfl := List.mem_singleton.1 hj
        exact (few i hi).1
      · intro i hi
        rw [List.count_append, List.count_singleton_self]
        rcases List.mem_append.1 hi with hi | hi
        · exact ⟨(few i hi).1.trans (by omega), (few i hi).2⟩
        · obtain rfl := List.mem_singleton.1 hi
          refine ⟨by omega, ?_⟩
          by_contra full
          rw [Panel.letter?_eq_none_iff.2 (by omega)] at letter
          cases letter
    · exact h.seated_add (List.prefix_append _ _) (by simp [here])
  | @further id target line l new found =>
    obtain ⟨hl, rfl⟩ := mem_of_get? found
    refine ⟨h.nodup_add new, h.indices_add (by simp), h.follows_add ?_, fun figure => ?_⟩
    · obtain ⟨before, -, follows⟩ := h.follows_of_mem hl
      exact ⟨follows.lettered, by simp, fun id eq => ⟨l, hl, by simpa using eq, rfl, rfl⟩⟩
    · exact h.seated_add List.prefix_rfl (by simp)

theorem steps (h : n.Invariant) (steps : Steps n n') : n'.Invariant := by
  induction steps with
  | refl => exact h
  | tail _ step ih => exact ih.step step

end Invariant

theorem Steps.consistent (h : Steps empty n) : n.Consistent := (invariant_empty.steps h).consistent

end Numbering

end FloatFlattening
