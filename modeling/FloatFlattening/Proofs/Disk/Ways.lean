import FloatFlattening.Proofs.Disk.Walk
/-!
Where names lead after a change. Only directories and links count: names lead where they led if these
stay, and nowhere new if there are no more of them.
-/

namespace FloatFlattening.Disk

/-- Directories and links stay, and no links are added. -/
structure Ways (d d' : Disk) : Prop where
  here : d'.here = d.here
  dirs : ∀ l, d.entry? l = some .directory → d'.entry? l = some .directory
  kept : ∀ l t, d.entry? l = some (.link t) → d'.entry? l = some (.link t)
  links : ∀ l t, d'.entry? l = some (.link t) → d.entry? l = some (.link t)

/-- No directories and no links are added. -/
structure Narrows (d d' : Disk) : Prop where
  here : d'.here = d.here
  dirs : ∀ l, d'.entry? l = some .directory → d.entry? l = some .directory
  links : ∀ l t, d'.entry? l = some (.link t) → d.entry? l = some (.link t)

variable {d d' : Disk} {f : Bool} {n n' m m' : Nat} {p q l : Location} {ns : List Text} {t : Text}

theorem Ways.narrows (h : Ways d d') (back : ∀ l, d'.entry? l = some .directory → d.entry? l = some .directory) :
    Narrows d d' := ⟨h.here, back, h.links⟩

/-- Where a link is gone, there is no directory. -/
theorem Narrows.lost (h : Narrows d d') (there : d.entry? l = some (.link t)) :
    d'.entry? l ≠ some .directory := by
  intro dir
  rw [h.dirs l dir] at there
  cases there

namespace Leads

/-- Names lead where they led before. -/
theorem ways (h : Leads d f n p ns m l) (ways : Ways d d') : Leads d' f n p ns m l := by
  induction h with
  | nil => exact .nil
  | idle dir idle _ ih => exact .idle (ways.dirs _ dir) idle ih
  | up dir _ ih => exact .up (ways.dirs _ dir) ih
  | down dir isName noLink _ ih =>
    exact .down (ways.dirs _ dir) isName (fun t there => noLink t (ways.links _ t there)) ih
  | link dir isName there goesOn _ _ ih ih' =>
    exact .link (ways.dirs _ dir) isName (ways.kept _ _ there) goesOn ih ih'
  | stop dir isName there => exact .stop (ways.dirs _ dir) isName (ways.kept _ _ there)

/-- However many links may be followed, names lead to one place. -/
theorem unique (h : Leads d f n p ns m l) (h' : Leads d f n' p ns m' q) : l = q := by
  have first := (h.mono n').walk
  rw [Nat.add_comm] at first
  exact Except.ok.inj (first.symm.trans (h'.mono n).walk)

/-- Names lead on from directories only. -/
theorem dir_of_ne_nil (h : Leads d f n p ns m l) (ne : ns ≠ []) : d.entry? p = some .directory := by
  cases h with
  | nil => exact absurd rfl ne
  | idle dir | up dir | down dir | link dir | stop dir => exact dir

/-- Where names lead that only lead nowhere. -/
theorem of_leading_nil (h : Leads d f n p ns m l) (idle : Path.leading ns = []) : l = p := by
  induction h with
  | nil => rfl
  | idle _ isIdle _ ih =>
    rw [Path.leading_cons_idle isIdle] at idle
    exact ih idle
  | up =>
    rw [Path.leading_cons (by decide)] at idle
    cases idle
  | down _ isName | link _ isName | stop _ isName =>
    rw [Path.leading_cons isName.proper] at idle
    cases idle

/-- On the way to a place where nothing is, names that lead nowhere can be left out. -/
theorem leading_of_none (h : Leads d f n p ns m l) (none : d.entry? l = none) :
    Leads d f n p (Path.leading ns) m l := by
  induction h with
  | nil => exact .nil
  | idle _ idle _ ih =>
    rw [Path.leading_cons_idle idle]
    exact ih none
  | up dir _ ih =>
    rw [Path.leading_cons (by decide)]
    exact .up dir (ih none)
  | down dir isName noLink _ ih =>
    rw [Path.leading_cons isName.proper]
    exact .down dir isName noLink (ih none)
  | @link _ _ _ _ _ q l _ _ rest dir isName there goesOn first then_ _ ih =>
    rw [Path.leading_cons isName.proper]
    refine .link dir isName there (goesOn.imp_right fun ne idle => ?_) first (ih none)
    obtain rfl := then_.of_leading_nil idle
    simp [then_.dir_of_ne_nil ne] at none
  | stop dir isName there => simp [there] at none

/-- Names that go neither up nor through a link lead to the place that they name. -/
theorem eq_append (h : Leads d true n p ns m l) (noLink : ∀ below t, d.entry? (p ++ below) ≠ some (.link t))
    (inside : "..".toList ∉ ns) : l = p ++ Path.leading ns := by
  generalize hf : true = f' at h
  induction h with
  | nil => exact (List.append_nil _).symm
  | idle _ idle _ ih =>
    rw [Path.leading_cons_idle idle]
    exact ih noLink (fun mem => inside (List.mem_cons_of_mem _ mem)) hf
  | up => exact absurd List.mem_cons_self inside
  | @down _ _ _ p _ name _ _ isName _ _ ih =>
    rw [Path.leading_cons isName.proper, List.append_cons]
    refine ih (fun below t => ?_) (fun mem => inside (List.mem_cons_of_mem _ mem)) hf
    rw [List.append_assoc]
    exact noLink _ t
  | link _ _ there => exact absurd there (noLink _ _)
  | stop => cases hf

/-- With fewer directories and links, names lead where they led before, or only to where a link was. -/
theorem narrows (h : Leads d' f n p ns m l) (narrow : Narrows d d') :
    Leads d f n p ns m l ∨ ∃ t, d.entry? l = some (.link t) := by
  induction h with
  | nil => exact .inl .nil
  | idle dir idle _ ih => exact ih.imp_left (.idle (narrow.dirs _ dir) idle)
  | up dir _ ih => exact ih.imp_left (.up (narrow.dirs _ dir))
  | @down _ _ _ p _ name rest dir isName noLink then_ ih =>
    -- Where a link was, there is no directory to go on from: the name must be the last.
    by_cases lost : ∃ t, d.entry? (p ++ [name]) = some (.link t)
    · obtain ⟨t, there⟩ := lost
      by_cases last : rest = []
      · subst last
        cases then_
        exact .inr ⟨t, there⟩
      · exact absurd (then_.dir_of_ne_nil last) (narrow.lost there)
    · exact ih.imp_left (.down (narrow.dirs _ dir) isName fun t there => lost ⟨t, there⟩)
  | @link _ _ _ _ _ q _ _ _ rest dir isName there goesOn first then_ ih ih' =>
    rcases ih with ih | ⟨t, lost⟩
    · exact ih'.imp_left (.link (narrow.dirs _ dir) isName (narrow.links _ _ there) goesOn ih)
    · by_cases last : rest = []
      · subst last
        cases then_
        exact .inr ⟨t, lost⟩
      · exact absurd (then_.dir_of_ne_nil last) (narrow.lost lost)
  | stop dir isName there => exact .inl (.stop (narrow.dirs _ dir) isName (narrow.links _ _ there))

/-- With fewer directories and links, names that led to an entry of its own lead there or nowhere. -/
theorem eq_of_narrows (h : Leads d false n p ns m l) (noLink : ∀ t, d.entry? l ≠ some (.link t))
    (narrow : Narrows d d') (h' : Leads d' true n' p ns m' q) : q = l := by
  -- The ways are followed side by side. They part only where a link is gone, and there the other one ends.
  generalize hf : false = f at h
  induction h generalizing n' m' with
  | nil =>
    cases h'
    rfl
  | idle _ idle _ ih =>
    cases h' with
    | idle _ _ then_ => exact ih noLink then_ hf
    | up => simp at idle
    | down _ isName | link _ isName => exact absurd idle isName.proper
  | up _ _ ih =>
    cases h' with
    | idle _ idle => simp at idle
    | up _ then_ => exact ih noLink then_ hf
    | down _ isName | link _ isName => exact absurd rfl isName.inside
  | down _ isName noLink' _ ih =>
    cases h' with
    | idle _ idle => exact absurd idle isName.proper
    | up => exact absurd rfl isName.inside
    | down _ _ _ then_ => exact ih noLink then_ hf
    | link _ _ there => exact absurd (narrow.links _ _ there) (noLink' _)
  | @link f _ _ _ _ _ _ _ _ rest _ isName there goesOn first _ _ ih =>
    have on : rest ≠ [] := by
      subst hf
      simpa using goesOn
    cases h' with
    | idle _ idle => exact absurd idle isName.proper
    | up => exact absurd rfl isName.inside
    | down _ _ _ then_ => exact absurd (then_.dir_of_ne_nil on) (narrow.lost there)
    | link _ _ there' _ first' then_ =>
      obtain rfl : _ = _ := Entry.link.inj (Option.some.inj (there.symm.trans (narrow.links _ _ there')))
      rcases first'.narrows narrow with same | ⟨t, lost⟩
      · obtain rfl := first.unique same
        exact ih noLink then_ hf
      · exact absurd (then_.dir_of_ne_nil on) (narrow.lost lost)
  | stop _ _ there => exact absurd there (noLink _)

end Leads

end FloatFlattening.Disk
