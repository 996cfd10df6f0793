import FloatFlattening.Outline.Basic
import Mathlib.Data.List.Nodup
import Mathlib.Data.List.Perm.Subperm
/-!
The made-up labels of figures: they differ from each other and from every label of the document,
and nothing else about a figure changes when it is named.
-/

namespace FloatFlattening

namespace Outline

theorem syntheticLabel_injective : Function.Injective syntheticLabel := by
  intro k l h
  have digits : Nat.toDigits 10 k = Nat.toDigits 10 l := List.append_cancel_left h
  have := congrArg (Nat.ofDigitChars 10 · 0) digits
  simpa using this

/-- Of more labels than are taken, one is free. -/
theorem exists_free (taken : List Text) (k : Nat) :
    ∃ n ∈ List.range' (k + 1) (taken.length + 1), syntheticLabel n ∉ taken := by
  by_contra none
  have all : ∀ n ∈ List.range' (k + 1) (taken.length + 1), syntheticLabel n ∈ taken := by
    simpa using none
  have nodup : ((List.range' (k + 1) (taken.length + 1)).map syntheticLabel).Nodup :=
    List.Nodup.map syntheticLabel_injective List.nodup_range'
  have sub : (List.range' (k + 1) (taken.length + 1)).map syntheticLabel ⊆ taken := by
    intro id h
    obtain ⟨n, hn, rfl⟩ := List.mem_map.1 h
    exact all n hn
  have := (nodup.subperm sub).length_le
  rw [List.length_map, List.length_range'] at this
  omega

theorem nextFree_spec (taken : List Text) (k : Nat) :
    k < nextFree taken k ∧ syntheticLabel (nextFree taken k) ∉ taken := by
  obtain ⟨n, hn, free⟩ := exists_free taken k
  cases h : (List.range' (k + 1) (taken.length + 1)).find? (syntheticLabel · ∉ taken) with
  | none => exact absurd free (by simpa using List.find?_eq_none.1 h n hn)
  | some m =>
    have mem := List.mem_range'_1.1 (List.mem_of_find?_eq_some h)
    have := List.find?_some h
    rw [nextFree, h]
    exact ⟨mem.1, by simpa using this⟩

/-- How a figure comes out of the naming. -/
inductive Named (taken : List Text) (f : Figure) : Figure → Prop
  | kept (h : f.name = .unnamed → ¬ f.NeedsName) : Named taken f f
  | made (k : Nat) (unnamed : f.name = .unnamed) (needs : f.NeedsName)
      (free : syntheticLabel k ∉ taken) :
      Named taken f { f with name := .synthetic (syntheticLabel k) }

theorem forall₂_nameFigures (taken : List Text) (k : Nat) (fs : List Figure) :
    List.Forall₂ (Named taken) fs (nameFigures taken k fs) := by
  induction fs generalizing k with
  | nil => exact .nil
  | cons f fs ih =>
    rw [nameFigures]
    split
    next h => exact .cons (.made _ h.1 h.2 (nextFree_spec taken k).2) (ih _)
    next h => exact .cons (.kept (not_and.1 h)) (ih k)

end Outline

/-- The label made for a figure. -/
def Figure.made? (f : Figure) : Option Text :=
  match f.name with
  | .synthetic id => some id
  | _ => none

namespace Outline

variable {taken : List Text} {fs : List Figure}

theorem made_nameFigures (h : ∀ f ∈ fs, f.made? = none) (k : Nat) :
    ∃ ks : List Nat, (nameFigures taken k fs).filterMap Figure.made? = ks.map syntheticLabel ∧
      ks.Pairwise (· < ·) ∧ ∀ l ∈ ks, k < l ∧ syntheticLabel l ∉ taken := by
  induction fs generalizing k with
  | nil => exact ⟨[], rfl, .nil, by simp⟩
  | cons f fs ih =>
    have ih := ih fun g hg => h g (List.mem_cons_of_mem f hg)
    rw [nameFigures]
    split
    · obtain ⟨above, free⟩ := nextFree_spec taken k
      obtain ⟨ks, eq, sorted, hks⟩ := ih (nextFree taken k)
      refine ⟨nextFree taken k :: ks, by simp [Figure.made?, eq], ?_, ?_⟩
      · exact List.pairwise_cons.2 ⟨fun l hl => (hks l hl).1, sorted⟩
      · rintro l hl
        rcases List.mem_cons.1 hl with rfl | hl
        · exact ⟨above, free⟩
        · exact ⟨Nat.lt_trans above (hks l hl).1, (hks l hl).2⟩
    · obtain ⟨ks, eq, rest⟩ := ih k
      exact ⟨ks, by simp [h f List.mem_cons_self, eq], rest⟩

theorem nodup_made (h : ∀ f ∈ fs, f.made? = none) (k : Nat) :
    ((nameFigures taken k fs).filterMap Figure.made?).Nodup := by
  obtain ⟨ks, eq, sorted, -⟩ := made_nameFigures h k
  rw [eq]
  exact List.Nodup.map syntheticLabel_injective (sorted.imp Nat.ne_of_lt)

theorem not_mem_of_made (h : ∀ f ∈ fs, f.made? = none) {k : Nat} {id : Text}
    (made : id ∈ (nameFigures taken k fs).filterMap Figure.made?) : id ∉ taken := by
  obtain ⟨ks, eq, -, free⟩ := made_nameFigures h k
  rw [eq] at made
  obtain ⟨l, hl, rfl⟩ := List.mem_map.1 made
  exact (free l hl).2

end Outline

/-- What a figure is called apart from a label made for it. -/
def FloatName.own : FloatName → FloatName
  | synthetic _ => unnamed
  | name => name

namespace Outline

variable {taken : List Text} {fs gs : List Figure} {k l m : Nat}

theorem nextFree_eq (lt : k < l) (free : syntheticLabel l ∉ taken)
    (full : ∀ i, k < i → i < l → syntheticLabel i ∈ taken) : nextFree taken k = l := by
  obtain ⟨n, hn, free'⟩ := exists_free taken k
  cases found : (List.range' (k + 1) (taken.length + 1)).find? (syntheticLabel · ∉ taken) with
  | none => exact absurd free' (by simpa using List.find?_eq_none.1 found n hn)
  | some i =>
    rw [nextFree, found, Option.getD_some]
    obtain ⟨first, mem, least⟩ := List.find?_range'_eq_some.1 found
    have above := (List.mem_range'_1.1 mem).1
    have first : syntheticLabel i ∉ taken := by simpa using first
    have least : ∀ j, k + 1 ≤ j → j < i → syntheticLabel j ∈ taken := by simpa using least
    rcases Nat.lt_trichotomy i l with less | eq | more
    · exact absurd (full i above less) first
    · exact eq
    · exact absurd (least l lt more) free

/-- Where no label looks made up, figures are numbered without gaps. -/
theorem exists_range'_made (h : ∀ f ∈ fs, f.made? = none) (free : ∀ i, syntheticLabel i ∉ taken) (k : Nat) :
    ∃ m, (nameFigures taken k fs).filterMap Figure.made? = (List.range' (k + 1) m).map syntheticLabel := by
  induction fs generalizing k with
  | nil => exact ⟨0, rfl⟩
  | cons f fs ih =>
    simp only [List.forall_mem_cons] at h
    rw [nameFigures]
    split
    · rw [nextFree_eq (Nat.lt_succ_self k) (free _) fun i _ _ => by omega]
      obtain ⟨m, eq⟩ := ih h.2 (k + 1)
      exact ⟨m + 1, by simp [Figure.made?, eq, List.range'_succ]⟩
    · obtain ⟨m, eq⟩ := ih h.2 k
      exact ⟨m, by simp [h.1, eq]⟩

/-- A label made for the first figure is the next one. -/
theorem made_of_synthetic {f : Figure} {id : Text} (name : f.name = .synthetic id)
    (made : (f :: fs).filterMap Figure.made? = (List.range' (k + 1) m).map syntheticLabel) :
    id = syntheticLabel (k + 1) ∧
      ∃ m, fs.filterMap Figure.made? = (List.range' (k + 2) m).map syntheticLabel := by
  have hd : f.made? = some id := by rw [Figure.made?, name]
  rw [List.filterMap_cons_some hd] at made
  cases m with
  | zero => simp at made
  | succ m =>
    rw [List.range'_succ, List.map_cons] at made
    obtain ⟨first, rest⟩ := List.cons.inj made
    exact ⟨first, m, rest⟩

/-- What becomes of a named figure in another document, before the figures there are named: it is kept
without a label made for it, or another with its name as a label of its own stands there. -/
inductive Survives (K B : Figure → Figure → Prop) (taken : List Text) (f g : Figure) : Prop
  | kept (h : K f g) (name : g.name = f.name.own) (needs : f.NeedsName ↔ g.NeedsName)
      (free : ∀ id, f.name = .synthetic id → id ∉ taken) : Survives K B taken f g
  | replaced (h : B f g) {id : Text} (name : g.name = .labelled id) (same : f.name.id? = some id)
      (mem : id ∈ taken) : Survives K B taken f g

/-- Figures that are kept get the names again that they had. -/
theorem forall₂_nameFigures_survives {K B : Figure → Figure → Prop}
    (h : List.Forall₂ (Survives K B taken) fs gs)
    (named : ∀ f ∈ fs, f.name = .unnamed → ¬ f.NeedsName)
    (needed : ∀ f ∈ fs, f.name.isSynthetic → f.NeedsName)
    (made : fs.filterMap Figure.made? = (List.range' (k + 1) m).map syntheticLabel) (le : l ≤ k)
    (full : ∀ i, l < i → i ≤ k → syntheticLabel i ∈ taken) :
    List.Forall₂ (fun f g => (∃ g', K f g' ∧ g = { g' with name := f.name }) ∨
      B f g ∧ ∃ id, g.name = .labelled id ∧ f.name.id? = some id) fs (nameFigures taken l gs) := by
  induction h generalizing k l m with
  | nil => exact .nil
  | @cons f g fs gs hfg h ih =>
    simp only [List.forall_mem_cons] at named needed
    have same (none : f.made? = none) : fs.filterMap Figure.made? = (List.range' (k + 1) m).map syntheticLabel := by
      rwa [List.filterMap_cons_none none] at made
    rw [nameFigures]
    cases hfg with
    | kept hk name needs free =>
      cases hn : f.name with
      | unnamed =>
        rw [if_neg fun both => named.1 hn (needs.2 both.2)]
        refine .cons (.inl ⟨g, hk, ?_⟩) (ih named.2 needed.2 (same (by rw [Figure.made?, hn])) le full)
        rw [hn, ← show g.name = .unnamed by rw [name, hn]; rfl]
      | labelled id =>
        have hg : g.name = .labelled id := by rw [name, hn]; rfl
        rw [if_neg fun both => by simp [hg] at both]
        refine .cons (.inl ⟨g, hk, ?_⟩) (ih named.2 needed.2 (same (by rw [Figure.made?, hn])) le full)
        rw [hn, ← hg]
      | synthetic id =>
        have hg : g.name = .unnamed := by rw [name, hn]; rfl
        obtain ⟨rfl, m, rest⟩ := made_of_synthetic hn made
        rw [if_pos ⟨hg, needs.1 (needed.1 (by rw [hn]; rfl))⟩]
        dsimp only
        rw [nextFree_eq (Nat.lt_succ_of_le le) (free _ hn) fun i lt le => full i lt (Nat.le_of_lt_succ le)]
        refine .cons (.inl ⟨g, hk, by rw [hn]⟩) (ih named.2 needed.2 rest (Nat.le_refl _) fun i lt le => ?_)
        omega
    | replaced hb name same' mem =>
      rw [if_neg fun both => by simp [name] at both]
      refine .cons (.inr ⟨hb, _, name, same'⟩) ?_
      cases hn : f.name with
      | unnamed => simp [hn, FloatName.id?] at same'
      | labelled id => exact ih named.2 needed.2 (same (by rw [Figure.made?, hn])) le full
      | synthetic id =>
        obtain ⟨rfl, m, rest⟩ := made_of_synthetic hn made
        refine ih named.2 needed.2 rest (Nat.le_succ_of_le le) fun i lt le => ?_
        rcases Nat.lt_or_eq_of_le le with less | rfl
        · exact full i lt (Nat.le_of_lt_succ less)
        · have id := Option.some.inj ((congrArg FloatName.id? hn).symm.trans same')
          exact id ▸ mem

end Outline

end FloatFlattening
