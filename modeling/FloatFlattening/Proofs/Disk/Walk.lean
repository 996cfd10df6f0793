import FloatFlattening.Disk.Basic
import FloatFlattening.Proofs.Path
/-!
Where names lead on a disk. `Leads` is the relation of a walk that arrives, with the links that it
has left.
-/

namespace FloatFlattening.Disk

/-- A name that leads to an entry of a directory. -/
structure IsName (name : Text) : Prop where
  proper : ¬ (name = [] ∨ name = ".")
  inside : name ≠ ".."
  fits : name.byteSize ≤ maxNameSize

/-- Where the target of a link is looked for. -/
def linkStart (place : Location) (target : Text) : Location :=
  if Path.isAbsolute target then [] else place

inductive Leads (d : Disk) : (follow : Bool) → (links : Nat) → Location → List Text →
    (left : Nat) → Location → Prop
  | nil {f : Bool} {n : Nat} {p : Location} : Leads d f n p [] n p
  | idle {f : Bool} {n m : Nat} {p l : Location} {name : Text} {rest : List Text}
      (dir : d.entry? p = some .directory) (idle : name = [] ∨ name = ".")
      (then_ : Leads d f n p rest m l) : Leads d f n p (name :: rest) m l
  | up {f : Bool} {n m : Nat} {p l : Location} {rest : List Text}
      (dir : d.entry? p = some .directory) (then_ : Leads d f n p.dropLast rest m l) :
      Leads d f n p ("..".toList :: rest) m l
  | down {f : Bool} {n m : Nat} {p l : Location} {name : Text} {rest : List Text}
      (dir : d.entry? p = some .directory) (isName : IsName name)
      (noLink : ∀ t, d.entry? (p ++ [name]) ≠ some (.link t))
      (then_ : Leads d f n (p ++ [name]) rest m l) : Leads d f n p (name :: rest) m l
  | link {f : Bool} {n m k : Nat} {p q l : Location} {name target : Text} {rest : List Text}
      (dir : d.entry? p = some .directory) (isName : IsName name)
      (there : d.entry? (p ++ [name]) = some (.link target)) (goesOn : f ∨ rest ≠ [])
      (first : Leads d true n (linkStart p target) (Path.pieces target) m q)
      (then_ : Leads d f m q rest k l) : Leads d f (n + 1) p (name :: rest) k l
  | stop {n : Nat} {p : Location} {name target : Text}
      (dir : d.entry? p = some .directory) (isName : IsName name)
      (there : d.entry? (p ++ [name]) = some (.link target)) :
      Leads d false n p [name] n (p ++ [name])

variable {d : Disk} {f : Bool} {n m k : Nat} {p q l : Location} {ns ns' : List Text} {name : Text}

/-! How a walk goes on from a directory. -/

section

variable {rest : List Text} (dir : d.entry? p = some .directory)
include dir

theorem walk_idle (h : name = [] ∨ name = ".") : d.walk f n p (name :: rest) = d.walk f n p rest := by
  cases n <;> rw [walk, walkUntil, dir] <;> exact if_pos h

theorem walk_up : d.walk f n p ("..".toList :: rest) = d.walk f n p.dropLast rest := by
  cases n <;> rw [walk, walkUntil, dir] <;> rfl

theorem walk_down (isName : IsName name) (noLink : ∀ t, d.entry? (p ++ [name]) ≠ some (.link t)) :
    d.walk f n p (name :: rest) = d.walk f n (p ++ [name]) rest := by
  have fits := Nat.not_lt.2 isName.fits
  have inside := isName.inside
  cases n <;> rw [walk, walkUntil, dir] <;> simp only [isName.proper, inside, fits, if_false]

theorem walk_stop {target : Text} (isName : IsName name)
    (there : d.entry? (p ++ [name]) = some (.link target)) :
    d.walk false n p [name] = .ok (p ++ [name]) := by
  have fits := Nat.not_lt.2 isName.fits
  have inside := isName.inside
  cases n <;> rw [walk, walkUntil, dir] <;>
    simp only [isName.proper, inside, fits, if_false, there] <;> rfl

theorem walk_link {target : Text} (isName : IsName name)
    (there : d.entry? (p ++ [name]) = some (.link target)) (goesOn : f ∨ rest ≠ []) :
    d.walk f (n + 1) p (name :: rest) =
      d.walk f n (linkStart p target) (Path.pieces target ++ rest) := by
  have fits := Nat.not_lt.2 isName.fits
  have inside := isName.inside
  have on : ¬ (rest = [] ∧ (!f) = true) := by
    rintro ⟨rfl, h⟩
    cases f <;> simp at goesOn h
  rw [walk, walkUntil, dir]
  simp only [isName.proper, inside, fits, if_false, there, on]
  rfl

end

/-- Past the names that lead to a place, a walk goes on from there. -/
theorem Leads.walk_append (h : Leads d true n p ns m q) {rest : List Text} (goesOn : f ∨ rest ≠ []) :
    d.walk f n p (ns ++ rest) = d.walk f m q rest := by
  generalize hf : true = f' at h
  induction h generalizing rest with
  | nil => rfl
  | idle dir idle _ ih => rw [List.cons_append, walk_idle dir idle, ih goesOn hf]
  | up dir _ ih => rw [List.cons_append, walk_up dir, ih goesOn hf]
  | down dir isName noLink _ ih => rw [List.cons_append, walk_down dir isName noLink, ih goesOn hf]
  | link dir isName there _ _ _ ih ih' =>
    have on {ns : List Text} : f ∨ ns ++ rest ≠ [] := goesOn.imp_right (by simp +contextual)
    rw [List.cons_append, walk_link dir isName there on, ih on rfl, ih' goesOn hf]
  | stop => cases hf

theorem Leads.walk (h : Leads d f n p ns m l) : d.walk f n p ns = .ok l := by
  induction h with
  | @nil _ n => cases n <;> rfl
  | idle dir idle _ ih => rw [walk_idle dir idle, ih]
  | up dir _ ih => rw [walk_up dir, ih]
  | down dir isName noLink _ ih => rw [walk_down dir isName noLink, ih]
  | link dir isName there goesOn first _ _ ih =>
    rw [walk_link dir isName there goesOn, first.walk_append goesOn, ih]
  | stop dir isName there => exact walk_stop dir isName there

/-- The way through the first of some names, and on. -/
theorem Leads.split {xs ys : List Text} (h : Leads d f n p (xs ++ ys) k l) (goesOn : f ∨ ys ≠ []) :
    ∃ m q, Leads d true n p xs m q ∧ Leads d f m q ys k l := by
  induction xs generalizing n p with
  | nil => exact ⟨n, p, .nil, h⟩
  | cons x xs ih =>
    rw [List.cons_append] at h
    generalize eq : xs ++ ys = zs at h ih
    cases h with
    | idle dir idle then_ =>
      obtain ⟨m, q, first, second⟩ := ih then_
      exact ⟨m, q, .idle dir idle first, second⟩
    | up dir then_ =>
      obtain ⟨m, q, first, second⟩ := ih then_
      exact ⟨m, q, .up dir first, second⟩
    | down dir isName noLink then_ =>
      obtain ⟨m, q, first, second⟩ := ih then_
      exact ⟨m, q, .down dir isName noLink first, second⟩
    | link dir isName there _ target then_ =>
      obtain ⟨m, q, first, second⟩ := ih then_
      exact ⟨m, q, .link dir isName there (.inl rfl) target first, second⟩
    | stop => simp [(List.append_eq_nil_iff.1 eq).2] at goesOn

/-- A last name leads to its place, or to what the link there leads to. -/
theorem Leads.last_cases (h : Leads d f n p [name] m l) (proper : ¬ (name = [] ∨ name = ".")) (inside : name ≠ "..") :
    l = p ++ [name] ∧ (f → ∀ t, d.entry? l ≠ some (.link t)) ∨
      f ∧ ∃ k t, n = k + 1 ∧ d.entry? (p ++ [name]) = some (.link t) ∧
        Leads d true k (linkStart p t) (Path.pieces t) m l := by
  cases h with
  | idle _ idle => exact absurd idle proper
  | up => exact absurd rfl inside
  | down _ _ noLink then_ =>
    cases then_
    exact .inl ⟨rfl, fun _ => noLink⟩
  | link _ _ there goesOn first then_ =>
    cases then_
    exact .inr ⟨goesOn.resolve_right (by simp), _, _, rfl, there, first⟩
  | stop => exact .inl ⟨rfl, by simp⟩

/-- What the first name of a walk that arrives can be. -/
inductive Step (d : Disk) (f : Bool) (n : Nat) (p : Location) (name : Text) (rest : List Text)
    (l : Location) : Prop
  | idle (idle : name = [] ∨ name = ".") (then_ : d.walk f n p rest = .ok l)
  | up (eq : name = "..") (then_ : d.walk f n p.dropLast rest = .ok l)
  | down (isName : IsName name) (noLink : ∀ t, d.entry? (p ++ [name]) ≠ some (.link t))
      (then_ : d.walk f n (p ++ [name]) rest = .ok l)
  | link (isName : IsName name) (target : Text) (there : d.entry? (p ++ [name]) = some (.link target))
      (goesOn : f ∨ rest ≠ []) (k : Nat) (left : n = k + 1)
      (then_ : d.walk f k (linkStart p target) (Path.pieces target ++ rest) = .ok l)
  | stop (isName : IsName name) (target : Text) (there : d.entry? (p ++ [name]) = some (.link target))
      (no : f = false) (last : rest = []) (eq : l = p ++ [name])

theorem step_of_walk {rest : List Text} (h : d.walk f n p (name :: rest) = .ok l) :
    d.entry? p = some .directory ∧ Step d f n p name rest l := by
  have dir : d.entry? p = some .directory := by
    cases n <;> rw [Disk.walk, walkUntil] at h <;> split at h <;> first | assumption | cases h
  refine ⟨dir, ?_⟩
  by_cases idle : name = [] ∨ name = "."
  · exact .idle idle (walk_idle dir idle ▸ h)
  by_cases up : name = ".."
  · subst up
    exact .up rfl (walk_up dir ▸ h)
  by_cases fits : maxNameSize < name.byteSize
  · cases n <;> rw [Disk.walk, walkUntil, dir] at h <;>
      simp only [idle, up, fits, if_false, if_true] at h <;> cases h
  have isName : IsName name := ⟨idle, up, Nat.not_lt.1 fits⟩
  by_cases there : ∃ t, d.entry? (p ++ [name]) = some (.link t)
  · obtain ⟨t, there⟩ := there
    by_cases goesOn : f ∨ rest ≠ []
    · cases n with
      | zero =>
        have on : ¬ (rest = [] ∧ (!f) = true) := by
          rintro ⟨rfl, no⟩
          cases f <;> simp at goesOn no
        rw [Disk.walk, walkUntil, dir] at h
        simp only [idle, up, fits, if_false, there, on] at h
        cases h
      | succ n => exact .link isName t there goesOn n rfl (walk_link dir isName there goesOn ▸ h)
    · obtain ⟨no, rfl⟩ : f = false ∧ rest = [] := by simpa using goesOn
      subst no
      rw [walk_stop dir isName there] at h
      exact .stop isName t there rfl rfl (Except.ok.inj h).symm
  · have noLink : ∀ t, d.entry? (p ++ [name]) ≠ some (.link t) := fun t eq => there ⟨t, eq⟩
    exact .down isName noLink (walk_down dir isName noLink ▸ h)

theorem exists_leads (h : d.walk f n p ns = .ok l) : ∃ m, Leads d f n p ns m l := by
  induction n using Nat.strong_induction_on generalizing p ns with
  | _ n links =>
    induction ns generalizing p with
    | nil =>
      have same : d.walk f n p [] = .ok p := Leads.nil.walk
      obtain rfl := Except.ok.inj (same.symm.trans h)
      exact ⟨n, .nil⟩
    | cons name rest ih =>
      obtain ⟨dir, step⟩ := step_of_walk h
      cases step with
      | idle idle then_ =>
        obtain ⟨m, then_⟩ := ih then_
        exact ⟨m, .idle dir idle then_⟩
      | up eq then_ =>
        subst eq
        obtain ⟨m, then_⟩ := ih then_
        exact ⟨m, .up dir then_⟩
      | down isName noLink then_ =>
        obtain ⟨m, then_⟩ := ih then_
        exact ⟨m, .down dir isName noLink then_⟩
      | link isName target there goesOn k left then_ =>
        subst left
        obtain ⟨m, both⟩ := links k (Nat.lt_succ_self k) then_
        obtain ⟨_, _, first, then_⟩ := both.split goesOn
        exact ⟨m, .link dir isName there goesOn first then_⟩
      | stop isName target there no last eq =>
        subst no last eq
        exact ⟨n, .stop dir isName there⟩

theorem walk_eq_ok_iff : d.walk f n p ns = .ok l ↔ ∃ m, Leads d f n p ns m l :=
  ⟨exists_leads, fun ⟨_, h⟩ => h.walk⟩

namespace Leads

theorem append {xs ys : List Text} (h : Leads d true n p xs m q) (h' : Leads d f m q ys k l) :
    f ∨ ys ≠ [] → Leads d f n p (xs ++ ys) k l := by
  intro goesOn
  generalize hf : true = f' at h
  induction h with
  | nil => exact h'
  | idle dir idle _ ih => exact .idle dir idle (ih h' hf)
  | up dir _ ih => exact .up dir (ih h' hf)
  | down dir isName noLink _ ih => exact .down dir isName noLink (ih h' hf)
  | link dir isName there _ first _ _ ih =>
    exact .link dir isName there (goesOn.imp_right (by simp +contextual)) first (ih h' hf)
  | stop => cases hf

/-- More links do no harm. -/
theorem mono (h : Leads d f n p ns m l) (k : Nat) : Leads d f (n + k) p ns (m + k) l := by
  induction h with
  | nil => exact .nil
  | idle dir idle _ ih => exact .idle dir idle ih
  | up dir _ ih => exact .up dir ih
  | down dir isName noLink _ ih => exact .down dir isName noLink ih
  | link dir isName there goesOn _ _ ih ih' =>
    rw [Nat.add_right_comm]
    exact .link dir isName there goesOn ih ih'
  | stop dir isName there => exact .stop dir isName there

theorem le (h : Leads d f n p ns m l) : m ≤ n := by
  induction h with
  | nil | stop => exact Nat.le_refl _
  | idle _ _ _ ih | up _ _ ih | down _ _ _ _ ih => exact ih
  | link _ _ _ _ _ _ ih ih' => omega

/-- Names that lead nowhere can be left out. -/
theorem leading (h : Leads d true n p ns m l) : Leads d true n p (Path.leading ns) m l := by
  generalize hf : true = f' at h
  induction h with
  | nil => exact .nil
  | idle dir idle _ ih =>
    rw [Path.leading_cons_idle idle]
    exact ih hf
  | up dir _ ih =>
    rw [Path.leading_cons (by decide)]
    exact .up dir (ih hf)
  | down dir isName noLink _ ih =>
    rw [Path.leading_cons isName.proper]
    exact .down dir isName noLink (ih hf)
  | link dir isName there goesOn first _ _ ih =>
    subst hf
    rw [Path.leading_cons isName.proper]
    exact .link dir isName there (.inl rfl) first (ih rfl)
  | stop => cases hf

theorem dir_of_dir (h : Leads d true n p ns m l) (last : d.entry? l = some .directory) :
    d.entry? p = some .directory := by
  cases h with
  | nil => exact last
  | idle dir | up dir | down dir | link dir => exact dir

/-- On the way to a directory, names that lead nowhere can be put in. -/
theorem of_leading (h : Leads d true n p (Path.leading ns) m l)
    (last : d.entry? l = some .directory) : Leads d true n p ns m l := by
  induction ns generalizing n p with
  | nil => exact h
  | cons name ns ih =>
    by_cases idle : name = [] ∨ name = "."
    · rw [Path.leading_cons_idle idle] at h
      exact .idle (h.dir_of_dir last) idle (ih h)
    · rw [Path.leading_cons idle] at h
      cases h with
      | idle _ idle' => exact absurd idle' idle
      | up dir then_ => exact .up dir (ih then_)
      | down dir isName noLink then_ => exact .down dir isName noLink (ih then_)
      | link dir isName there _ first then_ =>
        exact .link dir isName there (.inl rfl) first (ih then_)

/-- Where no link is at the end, there is none that could be followed. -/
theorem follow_of_noLink (h : Leads d false n p ns m l) (noLink : ∀ t, d.entry? l ≠ some (.link t)) :
    Leads d true n p ns m l := by
  generalize hf : false = f' at h
  induction h with
  | nil => exact .nil
  | idle dir idle _ ih => exact .idle dir idle (ih noLink hf)
  | up dir _ ih => exact .up dir (ih noLink hf)
  | down dir isName noLink' _ ih => exact .down dir isName noLink' (ih noLink hf)
  | link dir isName there _ first _ _ ih => exact .link dir isName there (.inl rfl) first (ih noLink hf)
  | stop _ _ there => exact absurd there (noLink _)

theorem follow (h : Leads d false n p ns m l) (none : d.entry? l = none) : Leads d true n p ns m l :=
  h.follow_of_noLink (by simp [none])

/-- A walk that arrives also arrives when a link at the end is not followed. -/
theorem exists_stop (h : Leads d true n p ns m l) : ∃ m l, Leads d false n p ns m l := by
  generalize hf : true = f' at h
  induction h with
  | @nil _ n p => exact ⟨n, p, .nil⟩
  | idle dir idle _ ih =>
    obtain ⟨m, l, then_⟩ := ih hf
    exact ⟨m, l, .idle dir idle then_⟩
  | up dir _ ih =>
    obtain ⟨m, l, then_⟩ := ih hf
    exact ⟨m, l, .up dir then_⟩
  | down dir isName noLink _ ih =>
    obtain ⟨m, l, then_⟩ := ih hf
    exact ⟨m, l, .down dir isName noLink then_⟩
  | @link _ _ _ _ p _ _ name _ rest dir isName there _ first then_ _ ih =>
    by_cases last : rest = []
    · subst last
      exact ⟨_, _, .stop dir isName there⟩
    · obtain ⟨m, l, then_⟩ := ih hf
      exact ⟨m, l, .link dir isName there (.inr last) first then_⟩
  | stop => cases hf

end Leads

end FloatFlattening.Disk
