import FloatFlattening.Proofs.Numbering.Entry
import Mathlib.Logic.Relation
/-!
What can happen to a numbering, whether the step that is run on it ends well or in a fault.
-/

namespace FloatFlattening

namespace Numbering

/-- One change of a numbering. A panel without a label takes a seat only, and so does one for which
there is no letter left. -/
inductive Step (n : Numbering) : Numbering → Prop
  | own {id : Text} {kind : Label.Kind} {line : Nat} (new : id ∉ n.ids) (outside : kind ≠ .panel) :
      Step n { n with labels := n.labels ++ [⟨id, kind, none, n.nextIndex kind, none, none, line⟩] }
  | seat {figure : Text} {f : Label} (found : n.get? figure = some f) (isFigure : f.kind = .figure) :
      Step n { n with seats := n.seats ++ [figure] }
  | panel {id figure : Text} {line : Nat} {f : Label} {x : Char} (new : id ∉ n.ids)
      (found : n.get? figure = some f) (isFigure : f.kind = .figure)
      (letter : Panel.letter? (n.seats.count figure) = some x) :
      Step n ⟨n.labels ++ [⟨id, .panel, some figure, f.index, some x, none, line⟩],
        n.seats ++ [figure]⟩
  | further {id target : Text} {line : Nat} {l : Label} (new : id ∉ n.ids)
      (found : n.get? target = some l) :
      Step n { n with labels := n.labels ++ [{ l with id, aliasOf := some target, line }] }

/-- Any number of changes. -/
abbrev Steps : Numbering → Numbering → Prop := Relation.ReflTransGen Step

variable {n n' : Numbering} {id figure target : Text} {kind : Label.Kind} {parent : Option Text}
  {line : Nat} {α β : Type} {l : Label}

theorem Step.prefix_labels (h : Step n n') : n.labels <+: n'.labels := by
  cases h <;> simp

theorem Steps.prefix_labels (h : Steps n n') : n.labels <+: n'.labels := by
  induction h with
  | refl => exact List.prefix_rfl
  | tail _ step ih => exact ih.trans step.prefix_labels

/-- What a label is found as, it is found as ever after. -/
theorem Steps.get? (h : Steps n n') (found : n.get? id = some l) : n'.get? id = some l := by
  obtain ⟨rest, eq⟩ := h.prefix_labels
  rw [Numbering.get?, ← eq, List.find?_append]
  rw [Numbering.get?] at found
  rw [found]
  rfl

namespace Change

/-- The numbering after a change, granted or not. -/
def after (x : Change α) (n : Numbering) : Numbering :=
  match x.run n with
  | .ok _ n' | .error _ n' => n'

theorem after_of_ok {x : Change α} {a : α} (h : x.run n = .ok a n') : x.after n = n' := by
  rw [after, h]

theorem after_of_error {x : Change α} {f : Fault} (h : x.run n = .error f n') : x.after n = n' := by
  rw [after, h]

theorem steps_pure (a : α) (n : Numbering) : Steps n ((pure a : Change α).after n) := .refl

theorem steps_refuse (detail : Text) (n : Numbering) :
    Steps n ((refuse line detail : Change α).after n) := .refl

theorem steps_bind {x : Change α} {g : α → Change β} (h : Steps n (x.after n))
    (k : ∀ a n', x.run n = .ok a n' → Steps n' ((g a).after n')) :
    Steps n ((x >>= g).after n) := by
  cases hx : x.run n with
  | ok a n' =>
    have eq : (x >>= g).after n = (g a).after n' := by rw [after, EStateM.run_bind, hx, after]
    rw [eq]
    rw [after_of_ok hx] at h
    exact h.trans (k a n' hx)
  | error f n' =>
    have eq : (x >>= g).after n = n' := by rw [after, EStateM.run_bind, hx]
    rw [eq]
    rwa [after_of_error hx] at h

theorem steps_discard {x : Change α} (h : Steps n (x.after n)) :
    Steps n ((discard x).after n) :=
  steps_bind (g := fun _ => pure PUnit.unit) h fun _ _ _ => steps_pure _ _

theorem steps_forM {xs : List α} {f : α → Change PUnit} (h : ∀ a ∈ xs, ∀ n, Steps n ((f a).after n)) :
    ∀ n, Steps n ((xs.forM f).after n) := by
  induction xs with
  | nil =>
    intro n
    exact steps_pure _ _
  | cons a xs ih =>
    intro n
    apply steps_bind (h a (by simp) n)
    intro _ n' _
    exact ih (fun b hb => h b (List.mem_cons_of_mem _ hb)) n'

end Change

open Change

theorem steps_requireNew {k : Unit → Change α}
    (h : id ∉ n.ids → Steps n ((k ()).after n)) :
    Steps n ((requireNew id line >>= k).after n) := by
  cases found : n.get? id with
  | some first =>
    have run : (requireNew id line >>= k).run n = .error (.duplicateLabel id first.line line) n := by
      simp [requireNew, found]
    rw [after_of_error run]
  | none =>
    have run : (requireNew id line >>= k).run n = (k ()).run n := by simp [requireNew, found]
    rw [after, run]
    exact h (get?_eq_none_iff.1 found)

theorem run_takeSeat (figure : Text) (line : Nat) (n : Numbering) :
    (∃ f, (takeSeat figure line).run n = .error f n) ∨
    ∃ l, n.get? figure = some l ∧ l.kind = .figure ∧ (takeSeat figure line).run n =
      .ok (l.index, n.seats.count figure) { n with seats := n.seats ++ [figure] } := by
  cases found : (n.get? figure).filter (·.kind = .figure) with
  | none => exact .inl ⟨_, by simp only [takeSeat, EStateM.run_bind, EStateM.run_get, found]; rfl⟩
  | some l =>
    obtain ⟨get, kind⟩ := Option.filter_eq_some_iff.1 found
    refine .inr ⟨l, get, by simpa using kind, ?_⟩
    simp only [takeSeat, EStateM.run_bind, EStateM.run_get, found]
    rfl

theorem steps_takeSeat (figure : Text) (line : Nat) (n : Numbering) :
    Steps n ((takeSeat figure line).after n) := by
  rcases run_takeSeat figure line n with ⟨f, run⟩ | ⟨l, found, isFigure, run⟩
  · rw [after_of_error run]
  · rw [after_of_ok run]
    exact .single (.seat found isFigure)

theorem steps_letterAt (figure : Text) (position line : Nat) (n : Numbering) :
    Steps n ((letterAt figure position line).after n) := by
  rw [letterAt]
  split
  · exact steps_pure _ _
  · exact steps_refuse _ _

theorem steps_reserve (figure : Text) (line : Nat) (n : Numbering) :
    Steps n ((reserve figure line).after n) :=
  steps_bind (steps_takeSeat figure line n) fun a n' _ => steps_letterAt figure a.2 line n'

theorem steps_registerPanel (id : Text) (parent : Option Text) (line : Nat) (n : Numbering) :
    Steps n ((registerPanel id parent line).after n) := by
  cases parent with
  | none =>
    rw [registerPanel]
    exact steps_requireNew fun _ => steps_refuse _ _
  | some figure =>
    rw [registerPanel]
    apply steps_requireNew
    intro new
    rcases run_takeSeat figure line n with ⟨f, run⟩ | ⟨l, found, isFigure, run⟩
    · simp only [after, EStateM.run_bind, run]
      exact .refl
    · simp only [after, EStateM.run_bind, run, letterAt]
      cases letter : Panel.letter? (n.seats.count figure) with
      | none => exact .single (.seat found isFigure)
      | some x => exact .single (.panel new found isFigure letter)

theorem steps_register (id : Text) (kind : Label.Kind) (parent : Option Text) (line : Nat)
    (n : Numbering) : Steps n ((register id kind parent line).after n) := by
  rw [register]
  split
  · exact steps_registerPanel id parent line n
  next outside =>
    exact steps_requireNew fun new => .single (.own new outside)

theorem steps_registerAlias (id target : Text) (line : Nat) (n : Numbering) :
    Steps n ((registerAlias id target line).after n) := by
  rw [registerAlias]
  refine steps_requireNew fun new => ?_
  cases found : n.get? target with
  | none =>
    simp only [after, EStateM.run_bind, EStateM.run_get, found]
    exact .refl
  | some l =>
    simp only [after, EStateM.run_bind, EStateM.run_get, found]
    exact .single (.further new found)

theorem steps_visitPanel (t figure : Text) (p : Panel) (n : Numbering) :
    Steps n ((visitPanel t figure p).after n) := by
  rw [visitPanel]
  split
  · exact steps_discard (steps_reserve _ _ n)
  · apply steps_bind (steps_discard (steps_register _ _ _ _ n))
    intro _ n' _
    exact steps_forM (fun m _ n => steps_discard (steps_registerAlias _ _ _ n)) n'

theorem steps_visitFigure (t : Text) (f : Figure) (n : Numbering) :
    Steps n ((visitFigure t f).after n) := by
  rw [visitFigure]
  split
  · exact steps_pure _ _
  · apply steps_bind (steps_discard (steps_register _ _ _ _ n))
    intro _ n' _
    exact steps_forM (fun p _ n => steps_visitPanel t _ p n) n'

theorem steps_visitMark (o : Outline) (m : Mark) (n : Numbering) :
    Steps n ((visitMark o m).after n) := by
  rw [visitMark]
  split
  · split
    · exact steps_pure _ _
    · split
      · exact steps_discard (steps_registerAlias _ _ _ n)
      · exact steps_discard (steps_register _ _ _ _ n)
  · split
    · split
      · exact steps_discard (steps_registerAlias _ _ _ n)
      · exact steps_discard (steps_register _ _ _ _ n)
    · exact steps_discard (steps_register _ _ _ _ n)

theorem steps_visit (o : Outline) (s : Site) (n : Numbering) : Steps n ((visit o s).after n) := by
  cases s with
  | figure f => exact steps_visitFigure o.text f n
  | mark m => exact steps_visitMark o m n

theorem steps_of_ofOutline {o : Outline} (h : ofOutline o = .ok n) : Steps empty n := by
  have steps : Steps empty (after ((Site.merge o.figures o.marks).forM (visit o)) empty) :=
    steps_forM (fun s _ n => steps_visit o s n) empty
  rw [ofOutline] at h
  split at h
  next run =>
    obtain rfl := Except.ok.inj h
    rwa [after_of_ok run] at steps
  · cases h

end Numbering

end FloatFlattening
