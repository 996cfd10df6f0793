import FloatFlattening.Proofs.Numbering.Entry
/-!
What each step of a numbering registers.
-/

namespace FloatFlattening

theorem Label.kind_of_entry {l : Label} {id : Text} {kind : Label.Kind} {parent : Option Text}
    {letter : Option Char} (h : l.entry = .own id kind parent letter) : l.kind = kind := by
  rw [Label.entry] at h
  split at h
  · cases h
    rfl
  · cases h

namespace Numbering

variable {n n' : Numbering} {id figure target : Text} {kind : Label.Kind} {line position : Nat}
  {es : List Label.Entry} {seats : List Text} {full lost : Prop} {α : Type} {l : Label}

theorem Sound.add (hn : n.Sound) (h : l.id ∉ n.ids) (hs : seats ⊆ n.ids)
    (hl : ∀ x ∈ l.letter, ∃ i, Panel.letter? i = some x) :
    ({ labels := n.labels ++ [l], seats := n.seats ++ seats } : Numbering).Sound where
  nodup := by simpa [ids] using List.Nodup.concat h hn.nodup
  letters := by
    intro l' hl'
    rcases List.mem_append.1 hl' with hl' | hl'
    · exact hn.letters l' hl'
    · exact List.mem_singleton.1 hl' ▸ hl
  seats := by
    intro x hx
    have : x ∈ n.ids := by
      rcases List.mem_append.1 hx with hx | hx
      · exact hn.seats hx
      · exact hs hx
    rw [ids, List.map_append]
    exact List.mem_append_left _ this

theorem grows_add (h : l.id ∉ n.ids)
    (hl : n.Sound → ∀ x ∈ l.letter, ∃ i, Panel.letter? i = some x) :
    Grows n [l.entry] [] { n with labels := n.labels ++ [l] } where
  entries := by simp [entries]
  seats := (List.append_nil _).symm
  sound hn := by simpa using hn.add h (List.nil_subset _) (hl hn)

theorem outcome_requireNew {k : Unit → Change α} {e : Label.Entry}
    (h : e.id ∉ n.ids → Outcome n (e :: es) seats full lost ((k ()).run n)) :
    Outcome n (e :: es) seats full lost ((requireNew e.id line >>= k).run n) := by
  cases found : n.get? e.id with
  | some first =>
    have run : (requireNew e.id line >>= k).run n =
        .error (.duplicateLabel e.id first.line line) n := by
      simp [requireNew, found]
    rw [run]
    refine .duplicate ⟨_, _, _, rfl⟩ fun nodup => ?_
    have := (List.nodup_append.1 nodup).2.2 e.id (mem_ids_of_get? found) e.id (by simp)
    exact this rfl
  | none =>
    have run : (requireNew e.id line >>= k).run n = (k ()).run n := by
      simp [requireNew, found]
    rw [run]
    exact h (get?_eq_none_iff.1 found)

theorem outcome_register (h : kind ≠ .panel) :
    Outcome n [.own id kind none none] [] False False ((register id kind none line).run n) := by
  rw [register, if_neg h]
  refine outcome_requireNew (e := .own id kind none none) fun new => ?_
  exact .grown (grows_add (l := ⟨id, kind, none, n.nextIndex kind, none, none, line⟩) new (by simp)) not_false

theorem outcome_registerAlias :
    Outcome n [.further id target] [] False (target ∉ n.ids)
      ((registerAlias id target line).run n) := by
  rw [registerAlias]
  refine outcome_requireNew (e := .further id target) fun new => ?_
  cases found : n.get? target with
  | none =>
    simp only [EStateM.run_bind, EStateM.run_get, found]
    exact .lost (get?_eq_none_iff.1 found)
  | some l =>
    simp only [EStateM.run_bind, EStateM.run_get, found]
    refine .grown (grows_add (l := { l with id, aliasOf := some target, line }) new fun hn => ?_) not_false
    exact hn.letters l (mem_of_get? found).1

/-- A figure is registered and some of its seats are taken. -/
structure AtFigure (n : Numbering) (figure : Text) (position : Nat) : Prop where
  sound : n.Sound
  registered : .own figure .figure none none ∈ n.entries
  position : n.seats.count figure = position

namespace AtFigure

theorem mem_ids (h : AtFigure n figure position) : figure ∈ n.ids := by
  rw [← map_id_entries]
  exact List.mem_map_of_mem h.registered

theorem grows (h : AtFigure n figure position) (g : Grows n es seats n') :
    AtFigure n' figure (position + seats.count figure) where
  sound := g.sound h.sound
  registered := g.entries ▸ List.mem_append_left es h.registered
  position := by rw [g.seats, List.count_append, h.position]

theorem run_takeSeat (h : AtFigure n figure position) (line : Nat) :
    ∃ index, (takeSeat figure line).run n =
      .ok (index, position) { n with seats := n.seats ++ [figure] } := by
  obtain ⟨l, hl, entry⟩ := h.sound.exists_get? h.registered
  obtain rfl := h.position
  have found : (n.get? figure).filter (·.kind = .figure) = some l := by
    rw [show n.get? figure = some l from hl]
    exact Option.filter_some_pos (by simpa using Label.kind_of_entry entry)
  refine ⟨l.index, ?_⟩
  rw [takeSeat, EStateM.run_bind, EStateM.run_get]
  simp only [found]
  rfl

theorem outcome_registerPanel (h : AtFigure n figure position) :
    Outcome n [.own id .panel (some figure) (Panel.letter? position)] [figure]
      (Panel.maxCount ≤ position) False ((register id .panel (some figure) line).run n) := by
  rw [register, if_pos rfl, registerPanel]
  refine outcome_requireNew (e := .own id .panel (some figure) _) fun new => ?_
  obtain ⟨index, hi⟩ := h.run_takeSeat line
  cases hl : Panel.letter? position with
  | none =>
    simp only [EStateM.run_bind, hi, letterAt, hl]
    exact .outOfLetters ⟨figure, line, rfl⟩ (Panel.letter?_eq_none_iff.1 hl)
  | some letter =>
    simp only [EStateM.run_bind, hi, letterAt, hl, EStateM.run_pure]
    have notFull : ¬ Panel.maxCount ≤ position := by
      rw [← Panel.letter?_eq_none_iff, hl]
      simp
    refine .grown ⟨by simp [entries, Label.entry], rfl, fun hn => ?_⟩ notFull
    exact hn.add new (by simpa using h.mem_ids) (by simpa using ⟨position, hl⟩)

theorem outcome_reserve (h : AtFigure n figure position) :
    Outcome n [] [figure] (Panel.maxCount ≤ position) False ((reserve figure line).run n) := by
  obtain ⟨index, hi⟩ := h.run_takeSeat line
  cases hl : Panel.letter? position with
  | none =>
    simp only [reserve, EStateM.run_bind, hi, letterAt, hl]
    exact .outOfLetters ⟨figure, line, rfl⟩ (Panel.letter?_eq_none_iff.1 hl)
  | some letter =>
    simp only [reserve, EStateM.run_bind, hi, letterAt, hl, EStateM.run_pure]
    have notFull : ¬ Panel.maxCount ≤ position := by
      rw [← Panel.letter?_eq_none_iff, hl]
      simp
    refine .grown ⟨by simp [entries], rfl, fun hn => ⟨hn.nodup, fun x hx => ?_, hn.letters⟩⟩ notFull
    rcases List.mem_append.1 hx with hx | hx
    · exact hn.seats hx
    · obtain rfl := List.mem_singleton.1 hx
      exact h.mem_ids

end AtFigure

end Numbering

end FloatFlattening
