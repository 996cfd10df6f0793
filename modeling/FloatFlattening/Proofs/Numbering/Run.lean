import FloatFlattening.Proofs.List
import FloatFlattening.Proofs.Numbering.Visit
import Mathlib.Data.List.TakeWhile
/-!
A whole numbering registers what the sites of the document do, one after the other.
-/

namespace FloatFlattening

namespace Site

/-- The order in which sites are visited: a figure comes before a mark at its start. -/
def Precedes : Site → Site → Prop
  | figure f, figure g => f.span.start ≤ g.span.start
  | figure f, mark m => f.span.start ≤ m.span.start
  | mark m, figure f => m.span.start < f.span.start
  | mark m, mark m' => m.span.start ≤ m'.span.start

variable {fs : List Figure} {ms : List Mark}

theorem merge_cons (fs : List Figure) (m : Mark) (ms : List Mark) :
    merge fs (m :: ms) = (fs.takeWhile (·.span.start ≤ m.span.start)).map figure ++
      mark m :: merge (fs.dropWhile (·.span.start ≤ m.span.start)) ms := by
  rw [merge, drop_length_takeWhile]

theorem perm_merge (fs : List Figure) (ms : List Mark) :
    (merge fs ms).Perm (fs.map figure ++ ms.map mark) := by
  induction ms generalizing fs with
  | nil => simp [merge]
  | cons m ms ih =>
    rw [merge_cons]
    calc
      _ = (fs.takeWhile (·.span.start ≤ m.span.start)).map figure ++
          mark m :: merge (fs.dropWhile (·.span.start ≤ m.span.start)) ms := rfl
      List.Perm _ ((fs.takeWhile (·.span.start ≤ m.span.start)).map figure ++
          mark m :: ((fs.dropWhile (·.span.start ≤ m.span.start)).map figure ++ ms.map mark)) :=
        ((ih _).cons _).append_left _
      List.Perm _ ((fs.takeWhile (·.span.start ≤ m.span.start)).map figure ++
          ((fs.dropWhile (·.span.start ≤ m.span.start)).map figure ++ mark m :: ms.map mark)) :=
        List.perm_middle.symm.append_left _
      _ = fs.map figure ++ (m :: ms).map mark := by
        rw [← List.append_assoc, ← List.map_append, List.takeWhile_append_dropWhile, List.map_cons]

theorem mem_merge {s : Site} (h : s ∈ merge fs ms) :
    (∃ f ∈ fs, s = figure f) ∨ ∃ m ∈ ms, s = mark m := by
  simpa [eq_comm] using (perm_merge fs ms).mem_iff.1 h

theorem pairwise_merge (hf : fs.Pairwise fun f g => f.span.start ≤ g.span.start)
    (hm : ms.Pairwise fun m m' => m.span.start ≤ m'.span.start) :
    (merge fs ms).Pairwise Precedes := by
  induction ms generalizing fs with
  | nil =>
    rw [merge, List.pairwise_map]
    exact hf
  | cons m ms ih =>
    rw [merge_cons]
    have early : ∀ f ∈ fs.takeWhile (·.span.start ≤ m.span.start), f.span.start ≤ m.span.start :=
      fun f hf => by simpa using List.mem_takeWhile_imp hf
    have late : ∀ f ∈ fs.dropWhile (·.span.start ≤ m.span.start), m.span.start < f.span.start :=
      fun f hf' => lt_of_mem_dropWhile (f := fun g : Figure => g.span.start) hf hf'
    have sorted := hf
    rw [← List.takeWhile_append_dropWhile (p := (·.span.start ≤ m.span.start)) (l := fs),
      List.pairwise_append] at sorted
    obtain ⟨first, last, across⟩ := sorted
    refine List.pairwise_append.2 ⟨List.pairwise_map.2 first, ?_, ?_⟩
    · refine List.pairwise_cons.2 ⟨fun s hs => ?_, ih last hm.of_cons⟩
      rcases mem_merge hs with ⟨f, hf, rfl⟩ | ⟨m', hm', rfl⟩
      · exact late f hf
      · exact List.rel_of_pairwise_cons hm hm'
    · intro s hs s' hs'
      obtain ⟨f, hf, rfl⟩ := List.mem_map.1 hs
      rcases List.mem_cons.1 hs' with rfl | hs'
      · exact early f hf
      · rcases mem_merge hs' with ⟨g, hg, rfl⟩ | ⟨m', hm', rfl⟩
        · exact across f hf g hg
        · exact Nat.le_trans (early f hf) (List.rel_of_pairwise_cons hm hm')

end Site

namespace Outline

def sites (o : Outline) : List Site := Site.merge o.figures o.marks

/-- All that the numbering of a document registers. -/
def entries (o : Outline) : List Label.Entry := o.sites.flatMap (Site.entries o)

end Outline

namespace Numbering

variable {n : Numbering} {o : Outline}

theorem outcome_visits (hn : n.Sound) (o : Outline) (sites : List Site) :
    Outcome n (sites.flatMap (Site.entries o)) (sites.flatMap Site.seats)
      (∃ s ∈ sites, s.Overfull)
      (∃ earlier s later, sites = earlier ++ s :: later ∧
        s.Lost o (n.ids ++ (earlier.flatMap (Site.entries o)).map Label.Entry.id))
      ((sites.forM (visit o)).run n) := by
  induction sites generalizing n with
  | nil => exact (outcome_pure _).imp (by simp) False.elim
  | cons s sites ih =>
    have both := (outcome_visit hn o s).bind hn fun _ n' hn' grows => (ih hn').imp Iff.rfl fun lost => by
      rw [grows.ids] at lost
      exact lost
    refine both.imp (by simp) ?_
    rintro (lost | ⟨earlier, s', later, rfl, lost⟩)
    · exact ⟨[], s, sites, rfl, by simpa using lost⟩
    · exact ⟨s :: earlier, s', later, rfl, by simpa using lost⟩

theorem sound_empty : empty.Sound := ⟨.nil, List.nil_subset _, by simp [empty]⟩

theorem outcome_ofOutline (o : Outline) :
    Outcome empty o.entries (o.sites.flatMap Site.seats) (∃ s ∈ o.sites, s.Overfull)
      (∃ earlier s later, o.sites = earlier ++ s :: later ∧
        s.Lost o ((earlier.flatMap (Site.entries o)).map Label.Entry.id))
      ((o.sites.forM (visit o)).run empty) :=
  outcome_visits sound_empty o o.sites

theorem ofOutline_eq (o : Outline) :
    ofOutline o = match (o.sites.forM (visit o)).run empty with
      | .ok _ n => .ok n
      | .error f _ => .error f := rfl

/-- A numbering has registered the labels of a document. -/
structure Registers (n : Numbering) (o : Outline) : Prop where
  sound : n.Sound
  entries : n.entries = o.entries
  seated : ∀ s ∈ o.sites, ¬ s.Overfull

theorem registers_of_ofOutline (h : ofOutline o = .ok n) : n.Registers o := by
  have outcome := outcome_ofOutline o
  rw [ofOutline_eq] at h
  generalize (o.sites.forM (visit o)).run empty = r at outcome h
  cases outcome with
  | grown grows notFull =>
    obtain rfl := Except.ok.inj h
    exact ⟨grows.sound sound_empty, grows.entries, by simpa using notFull⟩
  | duplicate | outOfLetters | lost => cases h

theorem Registers.nodup (h : n.Registers o) : (o.entries.map Label.Entry.id).Nodup := by
  rw [← h.entries, map_id_entries]
  exact h.sound.nodup

end Numbering

end FloatFlattening
