import FloatFlattening.Proofs.Outline.Basic
/-!
The panels that commands and environments make in a figure: of all that can be panels, those that no
other lies around. Where no two overlap in part, each label and caption of the figure's body belongs
either to the figure or to one panel.
-/

namespace FloatFlattening

/-- One of two parts of a text lies in the other, or they lie apart. -/
def Span.Laminar (s r : Span) : Prop := s.Covers r ∨ r.Covers s ∨ s.Apart r

instance (s r : Span) : Decidable (s.Laminar r) := inferInstanceAs (Decidable (_ ∨ _ ∨ _))

theorem Span.Laminar.symm {s r : Span} (h : s.Laminar r) : r.Laminar s := by
  rcases h with covers | covers | apart
  · exact .inr (.inl covers)
  · exact .inl covers
  · exact .inr (.inr apart.symm)

namespace Panel

/-- A command or environment that can be a panel, with the part of it where images are looked for. -/
structure Construct where
  span : Span
  content : Span
  deriving DecidableEq, Repr

def commandNames : List Text := ["subfloat", "subfigure"]

def environmentNames : List Text := ["subfigure"]

/-- All in a part of a text that can be panels. -/
def constructs (t : Text) (s : Span) : List Construct :=
  (Command.inSpan t s commandNames).found.map (fun c => ⟨c.span, c.span⟩) ++
    (Environment.inSpan t s environmentNames).found.map fun e => ⟨e.span, e.body⟩

variable {t : Text} {s : Span} {c d : Construct} {p q : Panel} {ps : List Panel}

theorem start_lt_stop_of_mem_constructs (h : c ∈ constructs t s) : c.span.start < c.span.stop := by
  rcases List.mem_append.1 h with h | h
  · obtain ⟨c, hc, rfl⟩ := List.mem_map.1 h
    exact (Nat.lt_succ_self _).trans (Command.start_lt_stop hc)
  · obtain ⟨e, he, rfl⟩ := List.mem_map.1 h
    exact (Environment.bounds_of_mem_inSpan he).2.1

/-- No two panels begin at one place. -/
theorem pairwise_start_constructs (t : Text) (s : Span) :
    (constructs t s).Pairwise fun c d => c.span.start ≠ d.span.start := by
  refine List.pairwise_append.2 ⟨List.pairwise_map.2 ?_, List.pairwise_map.2 ?_, fun c hc d hd => ?_⟩
  · refine Command.pairwise_found.imp_of_mem fun hc _ order => ?_
    have := Command.start_lt_stop hc
    dsimp only
    omega
  · refine (Environment.pairwise_pair Command.pairwise_found).imp_of_mem fun he _ order => ?_
    have := (Environment.bounds_of_mem_inSpan he).2.1
    dsimp only
    omega
  · obtain ⟨command, found, rfl⟩ := List.mem_map.1 hc
    obtain ⟨e, he, rfl⟩ := List.mem_map.1 hd
    obtain ⟨b, f, sub, span, -⟩ := Environment.joins_of_mem_pair he
    rw [span]
    exact Command.start_ne_of_mem_inSpan found (sub.subset List.mem_cons_self) (by decide)

/-- How a panel is read off what it is. -/
structure Reads (t : Text) (c : Construct) (p : Panel) : Prop where
  span : p.span = c.span
  marks : p.marks = []
  whole : (Graphic.inSpan t c.content).stopped = none
  graphics : p.graphics = (Graphic.inSpan t c.content).found

theorem reads_of_ofCommand {c : Command} (h : ofCommand t c = .ok p) : Reads t ⟨c.span, c.span⟩ p := by
  simp only [ofCommand, Except.bind_eq_ok_iff, Scan.complete_eq_ok_iff] at h
  obtain ⟨_, ⟨whole, rfl⟩, h⟩ := h
  obtain rfl := Except.ok.inj h
  exact ⟨rfl, rfl, whole, rfl⟩

theorem reads_of_ofEnvironment {e : Environment} (h : ofEnvironment t e = .ok p) :
    Reads t ⟨e.span, e.body⟩ p := by
  rw [ofEnvironment] at h
  split at h
  · cases h
  · obtain ⟨_, -, h⟩ := Except.bind_eq_ok_iff.1 h
    simp only [Except.bind_eq_ok_iff, Scan.complete_eq_ok_iff] at h
    obtain ⟨_, ⟨whole, rfl⟩, h⟩ := h
    obtain rfl := Except.ok.inj h
    exact ⟨rfl, rfl, whole, rfl⟩

theorem outermost_sublist (ps : List Panel) : (outermost ps).Sublist ps := by
  induction ps with
  | nil => exact .slnil
  | cons p ps ih => exact (List.filter_sublist.trans ih).cons_cons p

theorem exists_covers_of_mem (h : p ∈ ps) : ∃ q ∈ outermost ps, q.span.Covers p.span := by
  induction ps with
  | nil => cases h
  | cons r ps ih =>
    rw [outermost]
    rcases List.mem_cons.1 h with rfl | h
    · exact ⟨p, List.mem_cons_self, .refl p.span⟩
    · obtain ⟨q, hq, covers⟩ := ih h
      by_cases inside : r.span.Covers q.span
      · exact ⟨r, List.mem_cons_self, inside.trans covers⟩
      · exact ⟨q, List.mem_cons_of_mem r (List.mem_filter.2 ⟨hq, by simpa using inside⟩), covers⟩

/-- Of panels in order, each of which lies in an earlier one or after it, the outermost lie one after
the other. -/
theorem pairwise_outermost
    (h : ps.Pairwise fun p q => p.span.Covers q.span ∨ p.span.stop ≤ q.span.start) :
    (outermost ps).Pairwise fun p q => p.span.stop ≤ q.span.start := by
  induction ps with
  | nil => exact .nil
  | cons p ps ih =>
    refine List.pairwise_cons.2 ⟨fun q hq => ?_, (ih h.of_cons).filter _⟩
    obtain ⟨mem, outside⟩ := List.mem_filter.1 hq
    have inside_or_after := List.rel_of_pairwise_cons h ((outermost_sublist ps).subset mem)
    exact inside_or_after.resolve_left (by simpa using outside)

/-- All that can be panels, each read, and the panels among them. -/
theorem exists_forall₂_of_written (h : written t s = .ok ps) :
    ∃ all, List.Forall₂ (Reads t) (constructs t s) all ∧
      ps = outermost (all.mergeSort fun p q => p.span.start ≤ q.span.start) := by
  simp only [written, Except.bind_eq_ok_iff, Scan.traverse_eq_ok_iff] at h
  obtain ⟨commands, ⟨-, hc⟩, environments, ⟨-, he⟩, h⟩ := h
  refine ⟨commands ++ environments, List.rel_append ?_ ?_, (Except.ok.inj h).symm⟩
  · exact List.forall₂_map_left_iff.2 (hc.imp fun _ _ => reads_of_ofCommand)
  · exact List.forall₂_map_left_iff.2 (he.imp fun _ _ => reads_of_ofEnvironment)

section

variable (h : written t s = .ok ps)

include h

theorem exists_construct_of_written (hp : p ∈ ps) : ∃ c ∈ constructs t s, Reads t c p := by
  obtain ⟨all, reads, rfl⟩ := exists_forall₂_of_written h
  exact exists_left_of_forall₂ reads (List.mem_mergeSort.1 ((outermost_sublist _).subset hp))

theorem exists_covers_of_written (hc : c ∈ constructs t s) : ∃ p ∈ ps, p.span.Covers c.span := by
  obtain ⟨all, reads, rfl⟩ := exists_forall₂_of_written h
  obtain ⟨p, hp, read⟩ := exists_right_of_forall₂ reads hc
  rw [← read.span]
  exact exists_covers_of_mem (List.mem_mergeSort.2 hp)

theorem sorted_written : ps.Pairwise fun p q => p.span.start ≤ q.span.start := by
  obtain ⟨all, -, rfl⟩ := exists_forall₂_of_written h
  exact (pairwise_mergeSort_key (fun p : Panel => p.span.start) all).sublist (outermost_sublist _)

theorem start_lt_stop_of_written (hp : p ∈ ps) : p.span.start < p.span.stop := by
  obtain ⟨c, hc, read⟩ := exists_construct_of_written h hp
  rw [read.span]
  exact start_lt_stop_of_mem_constructs hc

theorem pairwise_written (laminar : (constructs t s).Pairwise fun c d => c.span.Laminar d.span) :
    ps.Pairwise fun p q => p.span.stop ≤ q.span.start := by
  obtain ⟨all, reads, rfl⟩ := exists_forall₂_of_written h
  apply pairwise_outermost
  have spans : (constructs t s).map Construct.span = all.map Panel.span :=
    map_eq_of_forall₂ reads fun c p read => read.span.symm
  -- Neither relation tells the one from the other, so both hold also in the order of the starts.
  have both : all.Pairwise fun p q => p.span.Laminar q.span ∧ p.span.start ≠ q.span.start := by
    have := laminar.and (pairwise_start_constructs t s)
    rwa [← List.pairwise_map (f := Construct.span)
      (R := fun r r' => r.Laminar r' ∧ r.start ≠ r'.start), spans, List.pairwise_map] at this
  have sorted := pairwise_mergeSort_key (fun p : Panel => p.span.start) all
  have both := (List.mergeSort_perm all fun p q => p.span.start ≤ q.span.start).pairwise_iff
    (fun ⟨laminar, ne⟩ => ⟨laminar.symm, ne.symm⟩) |>.2 both
  refine (sorted.and both).imp_of_mem fun {p q} _ hq ⟨le, laminar, ne⟩ => ?_
  obtain ⟨c, hc, read⟩ := exists_left_of_forall₂ reads (List.mem_mergeSort.1 hq)
  have := read.span ▸ start_lt_stop_of_mem_constructs hc
  rcases laminar with covers | covers | before | after
  · exact .inl covers
  · have := covers.1
    omega
  · exact .inr before
  · omega

end

end Panel

end FloatFlattening
