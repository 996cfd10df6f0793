import FloatFlattening.Proofs.Numbering.Run
import FloatFlattening.Proofs.Outline.Basic
/-!
Which labels are registered with a figure: the one that names it and those of its panels.
-/

namespace FloatFlattening

namespace Panel

variable {p : Panel} {figure : Text} {position : Nat} {ps : List Panel}

theorem map_id_entries (figure : Text) (position : Nat) (p : Panel) :
    (p.entries figure position).map Label.Entry.id = p.marks.map Mark.id := by
  rw [entries]
  cases p.marks <;> simp [Function.comp_def]

theorem map_id_entriesFrom (figure : Text) (position : Nat) (ps : List Panel) :
    (entriesFrom figure position ps).map Label.Entry.id = (ps.flatMap Panel.marks).map Mark.id := by
  induction ps generalizing position with
  | nil => rfl
  | cons p ps ih => simp [map_id_entries, ih]

theorem mem_entriesFrom {e : Label.Entry} {i : Nat} (hp : ps[i]? = some p)
    (he : e ∈ p.entries figure (position + i)) : e ∈ entriesFrom figure position ps := by
  refine List.mem_flatMap.2 ⟨(p, position + i), ?_, he⟩
  exact List.mk_add_mem_zipIdx_iff_getElem?.2 hp

end Panel

namespace Figure

variable {t : Text} {e : Environment} {f : Figure} {m : Mark} {taken : List Text}

/-- The marks registered with a figure. -/
def visited (f : Figure) : List Mark := f.mainMark?.toList ++ f.panels.flatMap Panel.marks

theorem mem_visited : m ∈ f.visited ↔ f.mainMark? = some m ∨ ∃ p ∈ f.panels, m ∈ p.marks := by
  simp [visited]

theorem isVisitedWith_iff : Numbering.IsVisitedWith f m ↔ ∃ m' ∈ f.visited, m'.span = m.span := by
  simp only [Numbering.IsVisitedWith, mem_visited]
  constructor
  · rintro (⟨p, hp, own, ho, eq⟩ | main)
    · exact ⟨own, .inr ⟨p, hp, ho⟩, eq⟩
    · obtain ⟨m', hm', eq⟩ := (Option.any_eq_true _ _).1 main
      exact ⟨m', .inl hm', by simpa using eq⟩
  · rintro ⟨m', hm' | ⟨p, hp, hm'⟩, eq⟩
    · exact .inr (by simp [hm', eq])
    · exact .inl ⟨p, hp, m', hm', eq⟩

theorem mem_marks_of_mainMark? (h : f.mainMark? = some m) : m ∈ f.marks := by
  rw [mainMark?] at h
  split at h
  · cases h
  · exact List.mem_of_getLast? h

namespace Called

theorem name_of_mainMark? (h : f.Called taken) (hm : f.mainMark? = some m) :
    f.name = .labelled m.id := by
  cases h with
  | own name named =>
    have last : f.marks.getLast? = some m := by
      rw [Figure.mainMark?] at hm
      split at hm
      · cases hm
      · exact hm
    rw [name, last]
    rfl
  | made k name marks free => simp [Figure.mainMark?, name, FloatName.isSynthetic] at hm

theorem exists_id?_of_needsName (h : f.Called taken) (needs : f.NeedsName) : ∃ id, f.name.id? = some id := by
  cases hn : f.name with
  | labelled id | synthetic id => exact ⟨id, rfl⟩
  | unnamed =>
    cases h with
    | own name named => exact absurd needs (named hn)
    | made k name marks free => simp [name] at hn

/-- A figure that owns a mark has a name. -/
theorem exists_id? (h : f.Called taken) (hm : m ∈ f.visited) : ∃ id, f.name.id? = some id := by
  rcases mem_visited.1 hm with main | ⟨p, hp, hm⟩
  · exact ⟨m.id, by rw [h.name_of_mainMark? main]; rfl⟩
  · exact h.exists_id?_of_needsName (.inr ⟨p, hp, List.ne_nil_of_mem hm⟩)

/-- A figure registers the label made for it, if there is one, and those of its marks. -/
theorem map_id_entries (h : f.Called taken) :
    f.entries.map Label.Entry.id = f.made?.toList ++ f.visited.map Mark.id := by
  cases hid : f.name.id? with
  | none =>
    have none : f.visited = [] := List.eq_nil_iff_forall_not_mem.2 fun m hm => by
      obtain ⟨id, some⟩ := h.exists_id? hm
      simp [hid] at some
    cases hn : f.name with
    | unnamed => simp [entries, made?, hn, none, FloatName.id?]
    | labelled id | synthetic id => simp [hn, FloatName.id?] at hid
  | some id =>
    simp only [entries, hid, List.map_cons, Label.Entry.id_own, Panel.map_id_entriesFrom, visited,
      List.map_append]
    cases h with
    | own name named =>
      cases last : f.marks.getLast? with
      | none => simp [name, last, FloatName.ofMark?, FloatName.id?] at hid
      | some m =>
        have name : f.name = .labelled m.id := by rw [name, last]; rfl
        obtain rfl : m.id = id := by simpa [name, FloatName.id?] using hid
        simp [made?, mainMark?, name, last, FloatName.isSynthetic]
    | made k name marks free =>
      obtain rfl : Outline.syntheticLabel k = id := by simpa [name, FloatName.id?] using hid
      simp [made?, mainMark?, name, FloatName.isSynthetic]

end Called

namespace Reads

theorem mem_of_visited (h : Reads t e f) (hm : m ∈ f.visited) : m ∈ (Mark.inSpan t e.body).found := by
  rcases mem_visited.1 hm with main | ⟨p, hp, hm⟩
  · exact h.marks_sublist.subset (mem_marks_of_mainMark? main)
  · exact (h.panel_marks_sublist hp).subset hm

theorem nodup_visited (h : Reads t e f) (apart : f.panels.Pairwise fun p q =>
      p.span.stop ≤ q.span.start ∨ q.span.stop ≤ p.span.start) : f.visited.Nodup := by
  refine List.nodup_append.2 ⟨by cases f.mainMark? <;> simp, ?_, ?_⟩
  · exact List.nodup_flatMap.2 ⟨fun p hp => (h.panel_marks_sublist hp).nodup Mark.nodup_inSpan,
      h.disjoint_panels apart⟩
  · rintro m main _ hm rfl
    obtain ⟨p, hp, hm⟩ := List.mem_flatMap.1 hm
    have outer := mem_marks_of_mainMark? (Option.mem_toList.1 main)
    rw [h.marks, List.mem_filter] at outer
    simp only [Bool.not_eq_true', decide_eq_false_iff_not] at outer
    exact outer.2 ⟨p, hp, .inr ⟨m, hm, rfl⟩⟩

end Reads

end Figure

end FloatFlattening
