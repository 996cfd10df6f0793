import Mathlib.Data.List.Forall2
/-!
Steps that may end in an error, taken apart.
-/

namespace FloatFlattening

theorem Except.map_eq_ok_iff {f : α → β} {x : Except ε α} {b : β} :
    x.map f = .ok b ↔ ∃ a, x = .ok a ∧ f a = b := by
  cases x <;> simp [Except.map]

theorem Except.map_eq_error_iff {f : α → β} {x : Except ε α} {e : ε} :
    x.map f = .error e ↔ x = .error e := by
  cases x <;> simp [Except.map]

theorem Except.bind_eq_ok_iff {x : Except ε α} {f : α → Except ε β} {b : β} :
    (x >>= f) = .ok b ↔ ∃ a, x = .ok a ∧ f a = .ok b := by
  cases x <;> simp [bind, Except.bind]

theorem Except.ok_bind (a : α) (f : α → Except ε β) : (Except.ok a >>= f) = f a := rfl

theorem Except.exists_eq_ok_iff {x : Except ε α} {p : α → Prop} :
    (∃ a, x = .ok a ∧ p a) ↔ ∃ a ∈ x.toOption, p a := by
  cases x <;> simp [Except.toOption]

instance Except.decidableExists {x : Except ε α} {p : α → Prop} [DecidablePred p] :
    Decidable (∃ a, x = .ok a ∧ p a) :=
  decidable_of_iff _ Except.exists_eq_ok_iff.symm

theorem Except.mapM_eq_ok_iff {f : α → Except ε β} {l : List α} {r : List β} :
    l.mapM f = .ok r ↔ List.Forall₂ (fun a b => f a = .ok b) l r := by
  induction l generalizing r with
  | nil => simp [pure, Except.pure, eq_comm]
  | cons a l ih =>
    rw [List.mapM_cons, Except.bind_eq_ok_iff]
    constructor
    · rintro ⟨b, hb, h⟩
      obtain ⟨s, hs, h⟩ := Except.bind_eq_ok_iff.1 h
      obtain rfl : b :: s = r := by simpa [pure, Except.pure] using h
      exact .cons hb (ih.1 hs)
    · rintro (_ | ⟨hb, h⟩)
      exact ⟨_, hb, Except.bind_eq_ok_iff.2 ⟨_, ih.2 h, rfl⟩⟩

theorem Except.forM_eq_ok_iff {f : α → Except ε PUnit} {l : List α} :
    l.forM f = .ok ⟨⟩ ↔ ∀ a ∈ l, f a = .ok ⟨⟩ := by
  induction l with
  | nil => simp [pure, Except.pure]
  | cons a l ih =>
    rw [List.forM, Except.bind_eq_ok_iff, List.forall_mem_cons, ← ih]
    constructor
    · rintro ⟨_, ha, hl⟩
      exact ⟨ha, hl⟩
    · rintro ⟨ha, hl⟩
      exact ⟨_, ha, hl⟩

end FloatFlattening
