import Mathlib.Data.List.Forall2
import Mathlib.Data.List.Nodup
import Mathlib.Data.List.Sort
/-!
Lists whose members correspond one by one, and the parts of a list.
-/

namespace FloatFlattening

variable {α β γ δ : Type*} {R : α → β → Prop} {S : β → γ → Prop} {l : List α} {m : List β} {n : List γ}

theorem forall₂_comp (h : List.Forall₂ R l m) (k : List.Forall₂ S m n) :
    List.Forall₂ (fun a c => ∃ b, R a b ∧ S b c) l n := by
  induction h generalizing n with
  | nil =>
    cases k
    exact .nil
  | cons hab h ih =>
    cases k with
    | cons hbc k => exact .cons ⟨_, hab, hbc⟩ (ih k)

theorem exists_left_of_forall₂ (h : List.Forall₂ R l m) {b : β} (hb : b ∈ m) : ∃ a ∈ l, R a b := by
  induction h with
  | nil => simp at hb
  | cons hab h ih =>
    rcases List.mem_cons.1 hb with rfl | hb
    · exact ⟨_, List.mem_cons_self, hab⟩
    · obtain ⟨a, ha, hab⟩ := ih hb
      exact ⟨a, List.mem_cons_of_mem _ ha, hab⟩

theorem forall₂_mem (h : List.Forall₂ R l m) : List.Forall₂ (fun a b => (a ∈ l ∧ b ∈ m) ∧ R a b) l m := by
  induction h with
  | nil => exact .nil
  | cons hab h ih =>
    exact .cons ⟨⟨List.mem_cons_self, List.mem_cons_self⟩, hab⟩
      (ih.imp fun a b hab => ⟨⟨List.mem_cons_of_mem _ hab.1.1, List.mem_cons_of_mem _ hab.1.2⟩, hab.2⟩)

theorem exists_right_of_forall₂ (h : List.Forall₂ R l m) {a : α} (ha : a ∈ l) : ∃ b ∈ m, R a b :=
  exists_left_of_forall₂ h.flip ha

theorem exists_forall₂ (h : ∀ a ∈ l, ∃ b, R a b) : ∃ m, List.Forall₂ R l m := by
  induction l with
  | nil => exact ⟨[], .nil⟩
  | cons a l ih =>
    obtain ⟨b, hab⟩ := h a List.mem_cons_self
    obtain ⟨m, hm⟩ := ih fun a ha => h a (List.mem_cons_of_mem _ ha)
    exact ⟨b :: m, .cons hab hm⟩

theorem pairwise_of_forall₂ {P : α → α → Prop} {Q : β → β → Prop} (h : List.Forall₂ R l m) (hl : l.Pairwise P)
    (imp : ∀ a b, R a b → ∀ a' b', R a' b' → P a a' → Q b b') : m.Pairwise Q := by
  induction h with
  | nil => exact .nil
  | cons hab h ih =>
    refine List.pairwise_cons.2 ⟨fun b' hb' => ?_, ih hl.of_cons⟩
    obtain ⟨a', ha', hab'⟩ := exists_left_of_forall₂ h hb'
    exact imp _ _ hab _ _ hab' (List.rel_of_pairwise_cons hl ha')

theorem map_eq_of_forall₂ {f : α → γ} {g : β → γ} (h : List.Forall₂ R l m)
    (eq : ∀ a b, R a b → f a = g b) : l.map f = m.map g := by
  induction h with
  | nil => rfl
  | cons hab h ih => rw [List.map_cons, List.map_cons, eq _ _ hab, ih]

theorem flatMap_eq_of_forall₂ {f : α → List γ} {g : β → List γ} (h : List.Forall₂ R l m)
    (eq : ∀ a b, R a b → f a = g b) : l.flatMap f = m.flatMap g := by
  induction h with
  | nil => rfl
  | cons hab h ih => rw [List.flatMap_cons, List.flatMap_cons, eq _ _ hab, ih]

theorem flatMap_sublist_of_forall₂ {f : α → List γ} {g : β → List γ} (h : List.Forall₂ R l m)
    (sub : ∀ a b, R a b → (g b).Sublist (f a)) : (m.flatMap g).Sublist (l.flatMap f) := by
  induction h with
  | nil => exact .slnil
  | cons hab h ih => exact (sub _ _ hab).append ih

/-- Each correspondent exchanged for another that looks the same. -/
theorem exists_forall₂_map_eq {R' : α → γ → Prop} {f : β → δ} {g : γ → δ} (h : List.Forall₂ R l m)
    (exchange : ∀ a ∈ l, ∀ b, R a b → ∃ c, R' a c ∧ g c = f b) :
    ∃ n, List.Forall₂ R' l n ∧ n.map g = m.map f := by
  induction h with
  | nil => exact ⟨[], .nil, rfl⟩
  | cons hab _ ih =>
    obtain ⟨c, hc, same⟩ := exchange _ List.mem_cons_self _ hab
    obtain ⟨n, hn, eq⟩ := ih fun a ha => exchange a (List.mem_cons_of_mem _ ha)
    exact ⟨c :: n, .cons hc hn, by rw [List.map_cons, List.map_cons, same, eq]⟩

theorem forall₂_filter {p : α → Bool} {q : β → Bool} (h : List.Forall₂ R l m)
    (eq : ∀ a b, R a b → p a = q b) : List.Forall₂ R (l.filter p) (m.filter q) :=
  List.rel_filter (fun a b hab => iff_of_eq (congrArg (· = true) (eq a b hab))) h

theorem rel_find? {p : α → Bool} {q : β → Bool} (h : List.Forall₂ R l m)
    (eq : ∀ a b, R a b → p a = q b) : Option.Rel R (l.find? p) (m.find? q) := by
  induction h with
  | nil => exact .none
  | @cons a b l m hab h ih =>
    rw [List.find?_cons, List.find?_cons, eq a b hab]
    cases q b with
    | true => exact .some hab
    | false => exact ih

theorem rel_head? (h : List.Forall₂ R l m) : Option.Rel R l.head? m.head? := by
  cases h with
  | nil => exact .none
  | cons hab h => exact .some hab

theorem rel_getLast? (h : List.Forall₂ R l m) : Option.Rel R l.getLast? m.getLast? := by
  rw [← List.head?_reverse, ← List.head?_reverse]
  exact rel_head? (List.rel_reverse h)

theorem rel_filter {a? : Option α} {b? : Option β} {p : α → Bool} {q : β → Bool} (h : Option.Rel R a? b?)
    (eq : ∀ a b, R a b → p a = q b) : Option.Rel R (a?.filter p) (b?.filter q) := by
  cases h with
  | none => exact .none
  | @some a b hab =>
    rw [Option.filter_some, Option.filter_some, eq a b hab]
    split
    · exact .some hab
    · exact .none

theorem any_eq_of_forall₂ {p : α → Bool} {q : β → Bool} (h : List.Forall₂ R l m)
    (eq : ∀ a b, R a b → p a = q b) : l.any p = m.any q := by
  induction h with
  | nil => rfl
  | cons hab h ih => rw [List.any_cons, List.any_cons, eq _ _ hab, ih]

theorem exists_mem_iff_of_forall₂ {p : α → Prop} {q : β → Prop} (h : List.Forall₂ R l m)
    (iff : ∀ a b, R a b → (p a ↔ q b)) : (∃ a ∈ l, p a) ↔ ∃ b ∈ m, q b := by
  induction h with
  | nil => simp
  | cons hab h ih => simp [iff _ _ hab, ih]

/-- Corresponding lists in corresponding orders. -/
theorem forall₂_mergeSort {le : α → α → Bool} {le' : β → β → Bool} (h : List.Forall₂ R l m)
    (eq : ∀ a b, R a b → ∀ a' b', R a' b' → le a a' = le' b b') :
    List.Forall₂ R (l.mergeSort le) (m.mergeSort le') := by
  have pairs : ∀ p ∈ l.zip m, R p.1 p.2 := fun p hp => List.forall₂_zip h hp
  have fsts : (l.zip m).map Prod.fst = l := List.map_fst_zip (Nat.le_of_eq h.length_eq)
  have snds : (l.zip m).map Prod.snd = m := List.map_snd_zip (Nat.le_of_eq h.length_eq.symm)
  have same : ∀ p ∈ l.zip m, ∀ q ∈ l.zip m, le p.1 q.1 = le' p.2 q.2 :=
    fun p hp q hq => eq p.1 p.2 (pairs p hp) q.1 q.2 (pairs q hq)
  have first : ((l.zip m).mergeSort fun p q => le p.1 q.1).map Prod.fst = l.mergeSort le := by
    rw [List.map_mergeSort (s := le) (fun _ _ _ _ => rfl), fsts]
  have second : ((l.zip m).mergeSort fun p q => le p.1 q.1).map Prod.snd = m.mergeSort le' := by
    rw [List.map_mergeSort same, snds]
  rw [← first, ← second, List.forall₂_map_left_iff, List.forall₂_map_right_iff, List.forall₂_same]
  exact fun p hp => pairs p (List.mem_mergeSort.1 hp)

/-- A list sorted by a key. -/
theorem pairwise_mergeSort_key (key : α → Nat) (l : List α) :
    (l.mergeSort fun a b => key a ≤ key b).Pairwise fun a b => key a ≤ key b := by
  have sorted := @List.pairwise_mergeSort _ (fun a b => decide (key a ≤ key b))
    (fun a b c => by simpa using Nat.le_trans) (fun a b => by simpa using Nat.le_total _ _) l
  simpa using sorted

/-- A stable sort by a key is done by insertions. -/
theorem mergeSort_key_eq (key : α → Nat) (l : List α) :
    (l.mergeSort fun a b => key a ≤ key b) = l.insertionSort fun a b => key a ≤ key b := by
  induction l with
  | nil => simp
  | cons a l ih =>
    obtain ⟨before, after, whole, rest, less⟩ := @List.mergeSort_cons _ (fun a b => decide (key a ≤ key b))
      (fun a b c => by simpa using Nat.le_trans) (fun a b => by simpa using Nat.le_total _ _) a l
    have sorted := pairwise_mergeSort_key key (a :: l)
    rw [List.insertionSort_cons, ← ih, rest, List.orderedInsert_eq_take_drop,
      List.takeWhile_append_of_pos (by simpa using less), List.dropWhile_append_of_pos (by simpa using less)]
    rw [whole] at sorted ⊢
    cases after with
    | nil => simp
    | cons b after =>
      have le := List.rel_of_pairwise_cons (List.pairwise_append.1 sorted).2.1 List.mem_cons_self
      simp [le]

theorem eq_of_nodup_filterMap {f : α → Option β} (h : (l.filterMap f).Nodup) {a a' : α} {b : β} (ha : a ∈ l)
    (ha' : a' ∈ l) (hb : f a = some b) (hb' : f a' = some b) : a = a' := by
  induction l with
  | nil => cases ha
  | cons c l ih =>
    have later {d : α} (hd : d ∈ l) (eq : f d = some b) : b ∈ l.filterMap f := List.mem_filterMap.2 ⟨d, hd, eq⟩
    rcases List.mem_cons.1 ha with rfl | mem <;> rcases List.mem_cons.1 ha' with rfl | mem'
    · rfl
    · rw [List.filterMap_cons_some hb, List.nodup_cons] at h
      exact absurd (later mem' hb') h.1
    · rw [List.filterMap_cons_some hb', List.nodup_cons] at h
      exact absurd (later mem hb) h.1
    · refine ih ?_ mem mem'
      exact h.sublist (List.Sublist.filterMap f (List.sublist_cons_self c l))

theorem eq_singleton_of_pairwise {R : α → α → Prop} {a : α} (h : l.Pairwise R) (irrefl : ¬ R a a) (mem : a ∈ l)
    (only : ∀ b ∈ l, b = a) : l = [a] := by
  cases l with
  | nil => cases mem
  | cons b l =>
    obtain rfl := only b List.mem_cons_self
    cases l with
    | nil => rfl
    | cons c l =>
      obtain rfl := only c (by simp)
      exact absurd (List.rel_of_pairwise_cons h List.mem_cons_self) irrefl

theorem drop_eq_cons {l : List α} {n : Nat} {a : α} (h : l[n]? = some a) : l.drop n = a :: l.drop (n + 1) := by
  obtain ⟨lt, rfl⟩ := List.getElem?_eq_some_iff.1 h
  exact List.drop_eq_getElem_cons lt

theorem eq_take_append_cons {l : List α} {n : Nat} {a : α} (h : l[n]? = some a) :
    l = l.take n ++ a :: l.drop (n + 1) := by
  rw [← drop_eq_cons h, List.take_append_drop]

theorem drop_length_takeWhile (p : α → Bool) (l : List α) :
    l.drop (l.takeWhile p).length = l.dropWhile p := by
  induction l with
  | nil => rfl
  | cons a l ih => cases h : p a <;> simp [h, ih]

/-- Past the members of an ordered list below a bound, all are above it. -/
theorem lt_of_mem_dropWhile {f : α → Nat} {l : List α} {bound : Nat} {a : α}
    (h : l.Pairwise fun a b => f a ≤ f b) (ha : a ∈ l.dropWhile (f · ≤ bound)) : bound < f a := by
  induction l with
  | nil => simp at ha
  | cons b l ih =>
    by_cases hb : f b ≤ bound
    · exact ih h.of_cons (by simpa [hb] using ha)
    · rw [List.dropWhile_cons_of_neg (by simpa using hb)] at ha
      rcases List.mem_cons.1 ha with rfl | ha
      · omega
      · have := List.rel_of_pairwise_cons h ha
        omega

/-- Two lists of which some parts correspond member by member, and others as a whole. -/
inductive Woven {α β : Type} (R : α → β → Prop) (F : List α → List β → Prop) : List α → List β → Prop
  | last {as : List α} {bs : List β} (h : List.Forall₂ R as bs) : Woven R F as bs
  | cons {as part rest : List α} {bs part' rest' : List β} (h : List.Forall₂ R as bs) (parts : F part part')
      (later : Woven R F rest rest') : Woven R F (as ++ (part ++ rest)) (bs ++ (part' ++ rest'))

namespace Woven

variable {α β γ δ : Type} {R : α → β → Prop} {F : List α → List β → Prop} {as : List α} {bs : List β}

theorem imp (h : Woven R F as bs) {R' : α → β → Prop} {F' : List α → List β → Prop} (hR : ∀ a b, R a b → R' a b)
    (hF : ∀ part part', F part part' → F' part part') : Woven R' F' as bs := by
  induction h with
  | last h => exact .last (h.imp hR)
  | cons h parts later ih => exact .cons (h.imp hR) (hF _ _ parts) ih

theorem forall₂ (h : Woven R F as bs) {R' : α → β → Prop} (hR : ∀ a b, R a b → R' a b)
    (hF : ∀ part part', F part part' → List.Forall₂ R' part part') : List.Forall₂ R' as bs := by
  induction h with
  | last h => exact h.imp hR
  | cons h parts later ih => exact List.rel_append (h.imp hR) (List.rel_append (hF _ _ parts) ih)

theorem map (h : Woven R F as bs) {f : α → γ} {g : β → δ} {R' : γ → δ → Prop} {F' : List γ → List δ → Prop}
    (hR : ∀ a b, R a b → R' (f a) (g b)) (hF : ∀ part part', F part part' → F' (part.map f) (part'.map g)) :
    Woven R' F' (as.map f) (bs.map g) := by
  have parts {as : List α} {bs : List β} (h : List.Forall₂ R as bs) : List.Forall₂ R' (as.map f) (bs.map g) :=
    List.forall₂_map_left_iff.2 (List.forall₂_map_right_iff.2 (h.imp hR))
  induction h with
  | last h => exact .last (parts h)
  | cons h hp later ih =>
    rw [List.map_append, List.map_append, List.map_append, List.map_append]
    exact .cons (parts h) (hF _ _ hp) ih

theorem mem_right (h : Woven R F as bs) {b : β} (hb : b ∈ bs) :
    (∃ a ∈ as, R a b) ∨ ∃ part part', F part part' ∧ part ⊆ as ∧ b ∈ part' := by
  induction h with
  | last h => exact .inl (exists_left_of_forall₂ h hb)
  | cons h hp later ih =>
    rcases List.mem_append.1 hb with hb | hb
    · obtain ⟨a, ha, hab⟩ := exists_left_of_forall₂ h hb
      exact .inl ⟨a, List.mem_append_left _ ha, hab⟩
    · rcases List.mem_append.1 hb with hb | hb
      · exact .inr ⟨_, _, hp, fun a ha => by simp [ha], hb⟩
      · rcases ih hb with ⟨a, ha, hab⟩ | ⟨part, part', hp, sub, hb⟩
        · exact .inl ⟨a, by simp [ha], hab⟩
        · exact .inr ⟨part, part', hp, fun a ha => by simp [sub ha], hb⟩

/-- What corresponds, and what is exchanged as a whole, is of the lists. -/
theorem within (h : Woven R F as bs) :
    Woven (fun a b => R a b ∧ a ∈ as) (fun part part' => F part part' ∧ part.Sublist as) as bs := by
  have both {as : List α} {bs : List β} (h : List.Forall₂ R as bs) : List.Forall₂ (fun a b => R a b ∧ a ∈ as) as bs :=
    (forall₂_mem h).imp fun _ _ hab => ⟨hab.2, hab.1.1⟩
  induction h with
  | last h => exact .last (both h)
  | cons h hp later ih =>
    refine .cons ((both h).imp fun a b hab => ⟨hab.1, List.mem_append_left _ hab.2⟩)
      ⟨hp, (List.sublist_append_left _ _).trans (List.sublist_append_right _ _)⟩ (ih.imp (fun a b hab => ?_) ?_)
    · exact ⟨hab.1, List.mem_append_right _ (List.mem_append_right _ hab.2)⟩
    · exact fun part part' parts =>
        ⟨parts.1, (parts.2.trans (List.sublist_append_right _ _)).trans (List.sublist_append_right _ _)⟩

theorem flatMap_eq {f : α → List γ} {g : β → List γ} (h : Woven R F as bs) (hR : ∀ a b, R a b → f a = g b)
    (hF : ∀ part part', F part part' → part.flatMap f = part'.flatMap g) : as.flatMap f = bs.flatMap g := by
  induction h with
  | last h => exact flatMap_eq_of_forall₂ h hR
  | cons h hp later ih => simp only [List.flatMap_append, hF _ _ hp, ih, flatMap_eq_of_forall₂ h hR]

theorem flatMap_sublist {f : α → List γ} {g : β → List γ} (h : Woven R F as bs) (hR : ∀ a b, R a b → f a = g b)
    (hF : ∀ part part', F part part' → part'.flatMap g = []) : (bs.flatMap g).Sublist (as.flatMap f) := by
  induction h with
  | last h => rw [flatMap_eq_of_forall₂ h hR]
  | cons h hp later ih =>
    simp only [List.flatMap_append, hF _ _ hp, flatMap_eq_of_forall₂ h hR, List.nil_append]
    exact (ih.trans (List.sublist_append_right _ _)).append_left _

end Woven

end FloatFlattening
