import FloatFlattening.Proofs.Block
import FloatFlattening.Proofs.Outline.Panel
import FloatFlattening.Proofs.Pattern
import FloatFlattening.Proofs.Text
/-!
The body of a block as it is typeset by itself: the body of its float past the placement option, without
the captions of the float, and without its labels if it is a table.
-/

namespace FloatFlattening

namespace Text

variable {t : Text} {a b c : Nat} {s : Span} {ss rs : List Span}

/-- What is left of a part of a text without the characters that spans cover. -/
def uncovered (t : Text) (start stop : Nat) (spans : List Span) : Text :=
  (List.range' start (stop - start)).filterMap fun i => if ∃ s ∈ spans, s.Holds i then none else t[i]?

theorem uncovered_append (t : Text) (ss : List Span) (hab : a ≤ b) (hbc : b ≤ c) :
    uncovered t a b ss ++ uncovered t b c ss = uncovered t a c ss := by
  have range : List.range' a (b - a) ++ List.range' b (c - b) = List.range' a (c - a) := by
    rw [show c - a = (b - a) + (c - b) by omega, ← List.range'_append_1, show a + (b - a) = b by omega]
  rw [uncovered, uncovered, uncovered, ← List.filterMap_append, range]

theorem uncovered_congr (t : Text)
    (same : ∀ i, a ≤ i → i < b → ((∃ s ∈ ss, s.Holds i) ↔ ∃ s ∈ rs, s.Holds i)) :
    uncovered t a b ss = uncovered t a b rs := by
  refine List.filterMap_congr fun i hi => ?_
  have := List.mem_range'_1.1 hi
  simp only [same i this.1 (by omega)]

theorem uncovered_cons_of_le (t : Text) (le : s.stop ≤ a) : uncovered t a b (s :: ss) = uncovered t a b ss := by
  refine uncovered_congr t fun i hi _ => ?_
  have free : ¬ s.Holds i := fun holds => absurd (holds.2.trans_le le) (Nat.not_lt.2 hi)
  simp [free]

theorem filterMap_range' (t : Text) (a n : Nat) :
    (List.range' a n).filterMap (t[·]?) = (t.drop a).take n := by
  induction n generalizing a with
  | zero => rfl
  | succ n ih =>
    rw [List.range'_succ]
    cases here : t[a]? with
    | none =>
      have past : t.drop a = [] := List.drop_eq_nil_of_le (List.getElem?_eq_none_iff.1 here)
      rw [List.filterMap_cons_none here, ih, past, ← List.drop_drop, past]
      simp
    | some x =>
      obtain ⟨lt, eq⟩ := List.getElem?_eq_some_iff.1 here
      rw [List.filterMap_cons_some here, ih, List.drop_eq_getElem_cons lt, eq, List.take_succ_cons]

theorem uncovered_of_free (t : Text) (le : a ≤ b) (free : ∀ i, a ≤ i → i < b → ∀ s ∈ ss, ¬ s.Holds i) :
    uncovered t a b ss = t.slice ⟨a, b⟩ := by
  have all : uncovered t a b ss = (List.range' a (b - a)).filterMap (t[·]?) := by
    refine List.filterMap_congr fun i hi => ?_
    have := List.mem_range'_1.1 hi
    rw [if_neg]
    rintro ⟨s, hs, holds⟩
    exact free i this.1 (by omega) s hs holds
  obtain ⟨n, rfl⟩ := Nat.exists_eq_add_of_le le
  rw [all, filterMap_range', slice_eq_take, Nat.add_sub_cancel_left]

theorem uncovered_of_mem (t : Text) (mem : s ∈ ss) : uncovered t s.start s.stop ss = [] := by
  refine List.filterMap_eq_nil_iff.2 fun i hi => ?_
  have := List.mem_range'_1.1 hi
  exact if_pos ⟨s, mem, this.1, by omega⟩

/-- A part that no span touches stays whole. -/
theorem slice_isInfix_uncovered (t : Text) (start : a ≤ s.start) (le : s.start ≤ s.stop) (stop : s.stop ≤ b)
    (apart : ∀ r ∈ ss, r.Apart s) : t.slice s <:+: uncovered t a b ss := by
  rw [← uncovered_append t ss start (le.trans stop), ← uncovered_append t ss le stop,
    uncovered_of_free t le fun i hi hi' r hr holds => ?_]
  · exact ⟨_, _, List.append_assoc _ _ _⟩
  · have := holds.1
    have := holds.2
    rcases apart r hr with h | h <;> omega

end Text

open Text

namespace Block

variable {t : Text} {last stop : Nat} {body : Span} {ss removed : List Span}

/-- Spans in order, one in the other or apart, are taken out as one would take out the characters that they
cover: those that begin in an earlier one lie in it. -/
theorem outside_eq_uncovered (sorted : ss.Pairwise fun r s => r.start < s.start) (laminar : ss.Pairwise Span.Laminar)
    (within : ∀ s ∈ ss, s.start ≤ s.stop ∧ s.stop ≤ stop)
    (passed : ∀ s ∈ ss, s.start < last → s.stop ≤ last) (le : last ≤ stop) :
    outside t stop last ss = uncovered t last stop ss := by
  induction ss generalizing last with
  | nil => exact (uncovered_of_free t le (by simp)).symm
  | cons s ss ih =>
    obtain ⟨first, sorted⟩ := List.pairwise_cons.1 sorted
    obtain ⟨nested, laminar⟩ := List.pairwise_cons.1 laminar
    obtain ⟨⟨hs, hs'⟩, within⟩ := List.forall_mem_cons.1 within
    obtain ⟨passes, passed⟩ := List.forall_mem_cons.1 passed
    rw [outside]
    split
    next lt =>
      rw [ih sorted laminar within passed le, uncovered_cons_of_le t (passes lt)]
    next ge =>
      have ge := Nat.le_of_not_lt ge
      have later : ∀ r ∈ ss, r.start < s.stop → r.stop ≤ s.stop := by
        intro r hr lt
        have := first r hr
        have := within r hr
        rcases nested r hr with covers | covers | apart
        · exact covers.2
        · have := covers.1
          omega
        · rcases apart with h | h <;> omega
      have before : uncovered t last s.start (s :: ss) = t.slice ⟨last, s.start⟩ := by
        refine uncovered_of_free t ge fun i hi hi' r hr holds => ?_
        have := holds.1
        rcases List.mem_cons.1 hr with rfl | hr
        · omega
        · have := first r hr
          omega
      have after : uncovered t s.stop stop (s :: ss) = uncovered t s.stop stop ss := uncovered_cons_of_le t le_rfl
      rw [ih sorted laminar within later hs', ← uncovered_append t _ ge (hs.trans hs'),
        ← uncovered_append t _ hs hs', uncovered_of_mem t List.mem_cons_self, before, after, List.nil_append]

/-- Where a body begins: past its placement option, if blanks at most come before that, and else at its start. -/
inductive Starts (t : Text) (body : Span) : Nat → Prop
  | option {u v w : Text} (split : t.slice body = u ++ '[' :: (v ++ ']' :: w)) (blank : ∀ c ∈ u, isBlank c)
      (first : ']' ∉ v) : Starts t body (body.start + (u.length + v.length + 2))
  | body (none : ∀ u v w, (∀ c ∈ u, isBlank c) → t.slice body ≠ u ++ '[' :: (v ++ ']' :: w)) :
      Starts t body body.start

/-- What is read up to a bracket is all there is, or a bracket stands past it. -/
theorem exists_bracket {r : Text} (lt : (r.takeWhile (· ≠ ']')).length < r.length) :
    ∃ w, r = r.takeWhile (· ≠ ']') ++ ']' :: w := by
  have parts : r.takeWhile (· ≠ ']') ++ r.dropWhile (· ≠ ']') = r := List.takeWhile_append_dropWhile
  have close := List.head?_dropWhile_not (· ≠ ']') r
  cases after : r.dropWhile (· ≠ ']') with
  | nil =>
    rw [after, List.append_nil] at parts
    rw [parts] at lt
    exact absurd lt (Nat.lt_irrefl _)
  | cons c w =>
    rw [after] at close parts
    obtain rfl : c = ']' := by simpa using close
    exact ⟨w, parts.symm⟩

theorem starts_bodyStart (t : Text) (body : Span) : Starts t body (bodyStart t body) := by
  have whole : t.slice body = (t.slice body).takeWhile isBlank ++ (t.slice body).trimStart :=
    List.takeWhile_append_dropWhile.symm
  have blank : ∀ c ∈ (t.slice body).takeWhile isBlank, isBlank c := fun c hc => List.mem_takeWhile_imp hc
  generalize (t.slice body).takeWhile isBlank = u at whole blank
  -- Whatever option there is, the blanks before it are these.
  have rest {v w : Text} (hv : ∀ c ∈ v, isBlank c) (eq : t.slice body = v ++ '[' :: w) :
      (t.slice body).trimStart = '[' :: w := by
    rw [trimStart, eq, List.dropWhile_append_of_pos hv, List.dropWhile_cons_of_neg (by decide)]
  rw [bodyStart]
  split
  next r begins =>
    rw [begins] at whole ⊢
    dsimp only
    split
    next lt =>
      have option : ('[' :: r).takeWhile (· ≠ ']') = '[' :: r.takeWhile (· ≠ ']') :=
        List.takeWhile_cons_of_pos (by decide)
      have first : ']' ∉ r.takeWhile (· ≠ ']') := fun mem => by simpa using List.mem_takeWhile_imp mem
      rw [option] at lt ⊢
      obtain ⟨w, parts⟩ := exists_bracket (Nat.lt_of_succ_lt_succ lt)
      have length : (t.slice body).length - ('[' :: r).length = u.length := by
        rw [whole, List.length_append, Nat.add_sub_cancel_right]
      rw [length]
      generalize r.takeWhile (· ≠ ']') = v at parts first ⊢
      rw [parts] at whole
      have start : body.start + u.length + ('[' :: v).length + 1 = body.start + (u.length + v.length + 2) := by
        rw [List.length_cons]
        omega
      rw [start]
      exact .option whole blank first
    next full =>
      have all : ('[' :: r).takeWhile (· ≠ ']') = '[' :: r :=
        (List.takeWhile_prefix _).eq_of_length_le (Nat.le_of_not_lt full)
      refine .body fun v x w hv eq => ?_
      have mem : ']' ∈ ('[' :: r).takeWhile (· ≠ ']') := by
        rw [all, begins.symm.trans (rest hv eq)]
        simp
      simpa using List.mem_takeWhile_imp mem
  next none =>
    refine .body fun v x w hv eq => ?_
    exact none _ (rest hv eq)

/-- A body begins where it does by itself or somewhere in it. -/
theorem bodyStart_le_stop (le : body.start ≤ body.stop) : bodyStart t body ≤ body.stop := by
  have starts := starts_bodyStart t body
  generalize bodyStart t body = start at starts
  cases starts with
  | body => exact le
  | option split =>
    have := congrArg List.length split
    simp only [length_slice, List.length_append, List.length_cons] at this
    omega

/-- What a body that begins at a place leaves to be typeset: all but what is covered by the given spans that
begin there or later, and then without blanks around it and without `\ContinuedFloat`. -/
def Leaves (t : Text) (start stop : Nat) (removed : List Span) (left : Text) : Prop :=
  ∃ count, continuedFloat.Erased count (trim (uncovered t start stop (removed.filter (start ≤ ·.start)))) left

theorem takes_continuedFloat : continuedFloat.Takes 1 := by
  have wordEnd : Pattern.wordEnd.Takes 0 := by
    intro t n found
    simp only [Pattern.wordEnd, Option.ite_none_left_eq_some, Option.some.injEq] at found
    omega
  exact (((Pattern.takes_word _).append wordEnd).append (Pattern.takes_many _)).mono (by decide)

/-- The body of a block leaves what it should, whatever the order of the spans. -/
theorem leaves_bodyWithout (le : body.start ≤ body.stop) (laminar : removed.Pairwise Span.Laminar)
    (distinct : removed.Pairwise fun r s => r.start ≠ s.start)
    (within : ∀ s ∈ removed, s.start ≤ s.stop ∧ s.stop ≤ body.stop) :
    Leaves t (bodyStart t body) body.stop removed (bodyWithout t body removed) := by
  have kept : removed.filter (fun s => bodyStart t body ≤ s.start && s.stop ≤ body.stop) =
      removed.filter (bodyStart t body ≤ ·.start) :=
    List.filter_congr fun s hs => by simp [(within s hs).2]
  rw [bodyWithout, kept]
  generalize spans : removed.filter (bodyStart t body ≤ ·.start) = ss
  have sub : ss.Sublist removed := spans ▸ List.filter_sublist
  have perm := List.mergeSort_perm ss fun r s => decide (r.start ≤ s.start)
  have sorted := pairwise_mergeSort_key (fun s : Span => s.start) ss
  have both : (ss.mergeSort fun r s => r.start ≤ s.start).Pairwise fun r s => r.Laminar s ∧ r.start ≠ s.start := by
    refine (perm.pairwise_iff fun {r s} h => ⟨h.1.symm, h.2.symm⟩).2 ?_
    exact (laminar.sublist sub).and (distinct.sublist sub)
  have mem {s : Span} (hs : s ∈ ss.mergeSort fun r s => r.start ≤ s.start) :
      s ∈ removed ∧ bodyStart t body ≤ s.start := by
    rw [List.mem_mergeSort, ← spans, List.mem_filter] at hs
    exact ⟨hs.1, of_decide_eq_true hs.2⟩
  rw [outside_eq_uncovered ((sorted.and both).imp fun {r s} h => Nat.lt_of_le_of_ne h.1 h.2.2)
    (both.imp fun h => h.1) (fun s hs => within s (mem hs).1)
    (fun s hs lt => absurd (mem hs).2 (Nat.not_le_of_lt lt)) (bodyStart_le_stop le)]
  have same : uncovered t (bodyStart t body) body.stop (ss.mergeSort fun r s => r.start ≤ s.start) =
      uncovered t (bodyStart t body) body.stop ss :=
    uncovered_congr t fun i _ _ => by simp only [List.mem_mergeSort]
  rw [Leaves, spans, same]
  exact ⟨_, Pattern.erased_erase takes_continuedFloat 0 _⟩

end Block

/-- Where the captions of a body lie. -/
def Caption.spans (t : Text) (body : Span) : List Span := (Command.inSpan t body ["caption"]).found.map (·.span)

/-- Where the labels of a body lie. -/
def Mark.spans (t : Text) (body : Span) : List Span := (Mark.inSpan t body).found.map (·.span)

/-- The captions of a figure outside its panels. -/
def Figure.outerCaptions (t : Text) (f : Figure) : List Span :=
  (Caption.spans t f.body).filter fun s => ¬ Figure.InPanel f.panels s

theorem Caption.pairwise_spans (t : Text) (body : Span) :
    (spans t body).Pairwise fun r s => r.stop ≤ s.start :=
  List.pairwise_map.2 Command.pairwise_found

theorem Caption.bounds_of_mem_spans {t : Text} {body s : Span} (h : s ∈ spans t body) :
    body.start ≤ s.start ∧ s.start < s.stop ∧ s.stop ≤ body.stop := by
  obtain ⟨c, hc, rfl⟩ := List.mem_map.1 h
  have := Command.bounds_of_mem_inSpan hc
  have := Command.start_lt_stop hc
  omega

theorem Mark.bounds_of_mem_spans {t : Text} {body s : Span} (h : s ∈ spans t body) :
    body.start ≤ s.start ∧ s.start < s.stop ∧ s.stop ≤ body.stop := by
  obtain ⟨m, hm, rfl⟩ := List.mem_map.1 h
  exact Mark.bounds_of_mem_inSpan hm

theorem Mark.pairwise_spans (t : Text) (body : Span) : (spans t body).Pairwise fun r s => r.stop ≤ s.start :=
  List.pairwise_map.2 Mark.pairwise_inSpan

theorem Figure.Reads.outerCaptions {t : Text} {e : Environment} {f : Figure} (h : f.Reads t e) :
    f.captions.map (·.span) = f.outerCaptions t := by
  rw [h.captions, Figure.outerCaptions, Caption.spans, h.body, List.filter_map]
  simp [Function.comp_def]

namespace Block

variable {t : Text} {o : Outline} {b : Block} {blocks : List Block} {withTables : Bool} {f : Figure}
  {table : Table} {start stop : Nat} {body s : Span} {ss removed : List Span}

/-- The captions and the labels of a body lie apart, or one in the other. -/
def Nested (t : Text) (body : Span) : Prop := (Caption.spans t body ++ Mark.spans t body).Pairwise Span.Laminar

instance (t : Text) (body : Span) : Decidable (Nested t body) :=
  inferInstanceAs (Decidable (List.Pairwise _ _))

/-- A part of a body is still there when the given spans are taken out. -/
def Survives (t : Text) (start stop : Nat) (removed : List Span) (s : Span) : Prop :=
  t.slice s <:+: uncovered t start stop (removed.filter (start ≤ ·.start))

/-- The labels of a table that are in none of its captions, or only in one that begins before `start`. -/
def looseMarks (t : Text) (body : Span) (start : Nat) : List Span :=
  (Mark.spans t body).filter fun s => ¬ ∃ r ∈ Caption.spans t body, start ≤ r.start ∧ r.Covers s

/-- How the body of a block is made from that of its float. -/
inductive Typesets (o : Outline) (b : Block) : Prop
  | figure (f : Figure) (mem : f ∈ o.figures) (multi : f.IsMulti) (kind : b.kind = .figure) (span : b.span = f.span)
      (start : Nat) (starts : Starts o.text f.body start)
      (leaves : Leaves o.text start f.body.stop (f.outerCaptions o.text) b.body)
      (captions : ∀ s ∈ Caption.spans o.text f.body, Figure.InPanel f.panels s → start ≤ s.start →
        Survives o.text start f.body.stop (f.outerCaptions o.text) s)
      (marks : ∀ p ∈ f.panels, ∀ m ∈ p.marks, start ≤ m.span.start →
        (∀ r ∈ f.outerCaptions o.text, r.Apart m.span) →
          Survives o.text start f.body.stop (f.outerCaptions o.text) m.span)
  | table (table : Table) (mem : table ∈ o.tables) (kind : b.kind = .table) (span : b.span = table.span)
      (start : Nat) (starts : Starts o.text table.body start)
      (leaves : Nested o.text table.body →
        Leaves o.text start table.body.stop (Caption.spans o.text table.body ++ Mark.spans o.text table.body) b.body)
      (nested : Nested o.text table.body →
        Leaves o.text start table.body.stop
          (Caption.spans o.text table.body ++ looseMarks o.text table.body start) b.body)

theorem body_ofFigure (h : ofFigure t f = .ok b) : b.body = bodyWithout t f.body (f.captions.map (·.span)) := by
  rw [ofFigure, Except.bind_eq_ok_iff] at h
  obtain ⟨images, -, h⟩ := h
  obtain rfl := Except.ok.inj h
  rfl

theorem body_ofTable {position : Nat} (h : ofTable t table position = .ok b) :
    b.body = bodyWithout t table.body (table.captions.map (·.span) ++ table.marks.map (·.span)) := by
  rw [ofTable, Except.bind_eq_ok_iff] at h
  obtain ⟨graphics, -, h⟩ := h
  obtain rfl := Except.ok.inj h
  rfl

/-- Captions that come one after the other are taken out of a body. -/
theorem leaves_captions (le : body.start ≤ body.stop) (sub : ss.Sublist (Caption.spans t body)) :
    Leaves t (bodyStart t body) body.stop ss (bodyWithout t body ss) := by
  have order := (Caption.pairwise_spans t body).sublist sub
  refine leaves_bodyWithout le (order.imp fun le => .inr (.inr (.inl le))) ?_ fun s hs => ?_
  · refine order.imp_of_mem fun {r s} hr _ le => ?_
    have := Caption.bounds_of_mem_spans (sub.subset hr)
    omega
  · have := Caption.bounds_of_mem_spans (sub.subset hs)
    omega

/-- Captions and labels that are nested are taken out of a body. -/
theorem leaves_captions_marks (le : body.start ≤ body.stop) (nested : Nested t body) :
    Leaves t (bodyStart t body) body.stop (Caption.spans t body ++ Mark.spans t body)
      (bodyWithout t body (Caption.spans t body ++ Mark.spans t body)) := by
  refine leaves_bodyWithout le nested (List.pairwise_append.2 ⟨?_, ?_, ?_⟩) (List.forall_mem_append.2 ⟨?_, ?_⟩)
  · refine (Caption.pairwise_spans t body).imp_of_mem fun hr _ le => ?_
    have := Caption.bounds_of_mem_spans hr
    omega
  · refine (Mark.pairwise_spans t body).imp_of_mem fun hr _ le => ?_
    have := Mark.bounds_of_mem_spans hr
    omega
  · intro r hr s hs
    obtain ⟨c, hc, rfl⟩ := List.mem_map.1 hr
    obtain ⟨m, hm, rfl⟩ := List.mem_map.1 hs
    obtain ⟨d, hd, rfl⟩ := Mark.exists_command hm
    exact Command.start_ne_of_mem_inSpan hc hd (by decide)
  · intro s hs
    have := Caption.bounds_of_mem_spans hs
    omega
  · intro s hs
    have := Mark.bounds_of_mem_spans hs
    omega

/-- A label in a caption that is taken out adds nothing to what is. -/
theorem uncovered_looseMarks (t : Text) (body : Span) (start : Nat) :
    uncovered t start body.stop ((Caption.spans t body ++ looseMarks t body start).filter (start ≤ ·.start)) =
      uncovered t start body.stop ((Caption.spans t body ++ Mark.spans t body).filter (start ≤ ·.start)) := by
  refine uncovered_congr t fun i _ _ => ⟨?_, ?_⟩
  · rintro ⟨s, hs, holds⟩
    refine ⟨s, ?_, holds⟩
    simp only [looseMarks, List.mem_filter, List.mem_append] at hs ⊢
    exact ⟨hs.1.imp_right And.left, hs.2⟩
  · rintro ⟨s, hs, holds⟩
    obtain ⟨mem, later⟩ := List.mem_filter.1 hs
    by_cases inside : ∃ r ∈ Caption.spans t body, start ≤ r.start ∧ r.Covers s
    · obtain ⟨r, hr, le, covers⟩ := inside
      refine ⟨r, List.mem_filter.2 ⟨List.mem_append_left _ hr, decide_eq_true le⟩, ?_⟩
      exact ⟨covers.1.trans holds.1, Nat.lt_of_lt_of_le holds.2 covers.2⟩
    · refine ⟨s, List.mem_filter.2 ⟨?_, later⟩, holds⟩
      refine (List.mem_append.1 mem).elim (List.mem_append_left _) fun hs => List.mem_append_right _ ?_
      exact List.mem_filter.2 ⟨hs, decide_eq_true inside⟩

theorem survives (later : start ≤ s.start) (le : s.start ≤ s.stop) (inside : s.stop ≤ stop)
    (apart : ∀ r ∈ removed, r.Apart s) : Survives t start stop removed s :=
  slice_isInfix_uncovered t later le inside fun r hr => apart r (List.mem_filter.1 hr).1

theorem typesets_ofFigure (reads : o.Reads t) (mem : f ∈ o.figures) (multi : f.IsMulti) (kind : b.kind = .figure)
    (span : b.span = f.span) (made : b.body = bodyWithout o.text f.body (f.captions.map (·.span))) :
    b.Typesets o := by
  obtain ⟨e, lies, figure⟩ := reads.exists_figure mem
  rw [← reads.text] at figure
  have le : f.body.start ≤ f.body.stop := figure.body ▸ lies.body_le
  have sub : (f.outerCaptions o.text).Sublist (Caption.spans o.text f.body) := List.filter_sublist
  refine .figure f mem multi kind span _ (starts_bodyStart o.text f.body) ?_ ?_ ?_
  · rw [made, figure.outerCaptions]
    exact leaves_captions le sub
  · intro s hs inPanel later
    have bounds := Caption.bounds_of_mem_spans hs
    refine survives later bounds.2.1.le bounds.2.2 fun r hr => ?_
    obtain ⟨hr, outer⟩ := List.mem_filter.1 hr
    refine (eq_or_apart (Caption.pairwise_spans o.text f.body) hr hs).resolve_left ?_
    rintro rfl
    exact of_decide_eq_true outer inPanel
  · intro p hp m hm later apart
    have bounds := Mark.bounds_of_mem_inSpan ((figure.panel_marks_sublist hp).subset hm)
    rw [← figure.body] at bounds
    exact survives later bounds.2.1.le bounds.2.2 apart

theorem typesets_ofTable (reads : o.Reads t) (mem : table ∈ o.tables) (kind : b.kind = .table)
    (span : b.span = table.span)
    (made : b.body = bodyWithout o.text table.body (table.captions.map (·.span) ++ table.marks.map (·.span))) :
    b.Typesets o := by
  obtain ⟨e, lies, read⟩ := reads.exists_table mem
  rw [← reads.text] at read
  have le : table.body.start ≤ table.body.stop := read.body ▸ lies.body_le
  have captions : table.captions.map (·.span) = Caption.spans o.text table.body := by
    rw [read.captions, read.body, Caption.spans]
  have marks : table.marks.map (·.span) = Mark.spans o.text table.body := by
    rw [read.marks, read.body, Mark.spans]
  rw [captions, marks] at made
  refine .table table mem kind span _ (starts_bodyStart o.text table.body) (fun nested => ?_) fun nested => ?_
  · rw [made]
    exact leaves_captions_marks le nested
  · rw [made, Leaves, uncovered_looseMarks]
    exact leaves_captions_marks le nested

/-- The body of a block is that of its float without just what is to go: the captions outside panels, and the labels
of a table. -/
theorem typesets_of_ofOutline (outline : Outline.ofText t = .ok o) (collected : ofOutline withTables o = .ok blocks)
    (hb : b ∈ blocks) : b.Typesets o := by
  have reads := Outline.reads_of_ofText outline
  obtain ⟨b, used, made, rfl⟩ := exists_made collected hb
  cases made with
  | figure f mem multi made =>
    obtain ⟨kind, -, span, -⟩ := ofFigure_ok made
    exact typesets_ofFigure reads mem multi kind span (body_ofFigure (b := b) made)
  | table table position mem made =>
    obtain ⟨kind, span, -⟩ := ofTable_ok made
    exact typesets_ofTable reads mem kind span (body_ofTable (b := b) made)

/-- A caption with a label in it and a label after it, past a placement option. -/
def captioned : Text :=
  "\\begin\x7btable\x7d [t]\\caption\x7ba\\label\x7bx\x7d b\x7d\\label\x7by\x7dc \\ContinuedFloat d\\end\x7btable\x7d"

theorem typesets_of_ofOutline_captioned : ∃ o blocks, Outline.ofText captioned = .ok o ∧
    ofOutline true o = .ok blocks ∧ (∃ table ∈ o.tables, Nested captioned table.body) ∧
      ∃ b ∈ blocks, b.body = ['c', ' ', 'd'] ∧ b.Typesets o := by
  have good : ∃ o, Outline.ofText captioned = .ok o ∧ ∃ blocks, ofOutline true o = .ok blocks ∧
      (∃ table ∈ o.tables, Nested captioned table.body) ∧ ∃ b ∈ blocks, b.body = ['c', ' ', 'd'] := by
    unfold Outline.ofText ofOutline ofTable bodyWithout
    simp only [mergeSort_key_eq]
    decide +kernel
  obtain ⟨o, ho, blocks, collected, nested, b, hb, body⟩ := good
  exact ⟨o, blocks, ho, collected, nested, b, hb, body, typesets_of_ofOutline ho collected hb⟩

/-- A figure whose caption holds its panels. -/
def enclosing : Text :=
  "\\begin\x7bfigure\x7d\\caption\x7b\\subfloat\x7b\\includegraphics\x7ba\x7d\\label\x7bp\x7d\x7d" ++
    "\\subfloat\x7b\\includegraphics\x7bb\x7d\x7d\x7d\\end\x7bfigure\x7d"

/-- The label of a panel goes with a caption that it is written in. -/
theorem exists_lost_mark : ∃ o blocks, Outline.ofText enclosing = .ok o ∧ ofOutline false o = .ok blocks ∧
    ∃ f ∈ o.figures, ∃ b ∈ blocks, b.span = f.span ∧ Nested enclosing f.body ∧
      Starts enclosing f.body f.body.start ∧
        ∃ p ∈ f.panels, ∃ m ∈ p.marks, f.body.start ≤ m.span.start ∧ b.body = [] := by
  have lost : ∃ o, Outline.ofText enclosing = .ok o ∧ ∃ blocks, ofOutline false o = .ok blocks ∧
      ∃ f ∈ o.figures, ∃ b ∈ blocks, b.span = f.span ∧ Nested enclosing f.body ∧
        bodyStart enclosing f.body = f.body.start ∧
          ∃ p ∈ f.panels, ∃ m ∈ p.marks, f.body.start ≤ m.span.start ∧ b.body = [] := by
    unfold Outline.ofText Figure.ofEnvironment Panel.written ofOutline ofFigure bodyWithout
    simp only [mergeSort_key_eq]
    decide +kernel
  obtain ⟨o, ho, blocks, collected, f, hf, b, hb, span, nested, start, panel⟩ := lost
  exact ⟨o, blocks, ho, collected, f, hf, b, hb, span, nested, start ▸ starts_bodyStart enclosing f.body, panel⟩

end Block

end FloatFlattening
