import FloatFlattening.Proofs.Flattening.Assembly
/-!
The report of references to nothing. It has each target that is not registered once, in the order in which they
are first visited, and with the line of that visit.
-/

namespace FloatFlattening

variable {r : Reference} {rs : List Reference} {ids : List Text}

namespace Reference

/-- The references with a target that none before them has. -/
def firstVisits (rs : List Reference) : List Reference :=
  (rs.zipIdx.filter fun p : Reference × Nat => ∀ r ∈ rs.take p.2, r.target ≠ p.1.target).map Prod.fst

theorem firstVisits_cons : firstVisits (r :: rs) = r :: (firstVisits rs).filter (·.target ≠ r.target) := by
  rw [firstVisits, List.zipIdx_cons', List.filter_cons_of_pos (by simp), List.map_cons, firstVisits,
    List.filter_map, List.map_map, List.filter_map, List.filter_filter]
  have later : ∀ p ∈ rs.zipIdx, ((fun p : Reference × Nat => decide (∀ r' ∈ (r :: rs).take p.2, r'.target ≠ p.1.target)) ∘
      Prod.map id (· + 1)) p =
        (((fun r' : Reference => decide (r'.target ≠ r.target)) ∘ Prod.fst) p &&
          decide (∀ r ∈ rs.take p.2, r.target ≠ p.1.target)) := by
    intro p _
    rw [Bool.eq_iff_iff]
    simp only [Function.comp, Prod.map_fst, Prod.map_snd, id, List.take_succ_cons, Bool.and_eq_true, decide_eq_true_eq,
      List.forall_mem_cons, ne_comm (a := r.target)]
  rw [List.filter_congr later]
  rfl

theorem firstVisits_filter :
    firstVisits (rs.filter fun r => r.target ∉ ids) = (firstVisits rs).filter fun r => r.target ∉ ids := by
  induction rs with
  | nil => rfl
  | cons r rs ih =>
    rw [firstVisits_cons]
    by_cases known : r.target ∈ ids
    · rw [List.filter_cons_of_neg (by simpa using known), List.filter_cons_of_neg (by simpa using known), ih,
        List.filter_filter]
      refine List.filter_congr fun r' _ => ?_
      by_cases eq : r'.target = r.target <;> simp [eq, known]
    · rw [List.filter_cons_of_pos (by simpa using known), List.filter_cons_of_pos (by simpa using known),
        firstVisits_cons, ih, List.filter_filter, List.filter_filter]
      simp only [Bool.and_comm]

theorem nodup_firstVisits (rs : List Reference) : ((firstVisits rs).map target).Nodup := by
  induction rs with
  | nil => exact List.nodup_nil
  | cons r rs ih =>
    rw [firstVisits_cons, List.map_cons, List.nodup_cons]
    exact ⟨by simp, ih.sublist (List.filter_sublist.map _)⟩

end Reference

/-- The report of a reference to nothing. -/
def Dangling.ofReference (r : Reference) : Dangling := ⟨r.target, r.line⟩

theorem Dangling.firsts_map (rs : List Reference) :
    firsts (rs.map ofReference) = (Reference.firstVisits rs).map ofReference := by
  induction rs with
  | nil => rfl
  | cons r rs ih =>
    rw [List.map_cons, firsts, ih, Reference.firstVisits_cons, List.map_cons, List.filter_map]
    rfl

namespace Flattened

variable {t : Text} {n : Numbering} {blocks : List Block} {images : List Replacement} {last : Nat}
  {chosen : List (Block × Text)} {u : List Dangling}

theorem ofText_eq_undefined_iff (apart : Apart t blocks images) (wellformed : Wellformed t blocks images) :
    ofText t n blocks images = .error (.fault (.undefinedReferences u)) ↔
      u ≠ [] ∧ u = ((Reference.firstVisits (visited t blocks images)).filter fun r => r.target ∉ n.ids).map
        Dangling.ofReference := by
  rw [← Reference.firstVisits_filter, ← Dangling.firsts_map]
  simp only [ofText]
  rw [passage_eq_ok apart wellformed]
  simp only [Except.ok_bind, visits_passages, dangling_visits]
  have report : (fun r : Reference => Dangling.mk r.target r.line) = Dangling.ofReference := rfl
  rw [report, visited]
  generalize Dangling.firsts _ = undefined
  cases undefined with
  | nil =>
    constructor
    · intro h
      cases h
    · rintro ⟨ne, rfl⟩
      exact absurd rfl ne
  | cons d undefined =>
    constructor
    · intro h
      cases h
      exact ⟨List.cons_ne_nil _ _, rfl⟩
    · rintro ⟨-, rfl⟩
      rfl

/-- A reference that is visited stands in the text outside the blocks replaced, or in what replaces one. -/
inductive VisitedAt (t : Text) (chosen : List (Block × Text)) (r : Reference) : Prop
  | gap (s : Span) (mem : r ∈ (Reference.inSpan t s).found) (line : r.line = t.lineOf r.span.start)
      (apart : ∀ c ∈ chosen, c.1.span.Apart r.span)
  | float (b : Block) (markup : Text) (mem : (b, markup) ∈ chosen) (r' : Reference)
      (found : r' ∈ (Reference.all markup).found) (eq : r = { r' with line := b.line })

theorem gap_apart (inside : ∀ c ∈ chosen, c.1.span.start ≤ c.1.span.stop) (after : ∀ c ∈ chosen, last ≤ c.1.span.start)
    (pairwise : chosen.Pairwise fun c d => c.1.span.stop ≤ d.1.span.start) {s : Span}
    (hs : .gap s ∈ stretches t last chosen) : last ≤ s.start ∧ ∀ c ∈ chosen, c.1.span.Apart s := by
  induction chosen generalizing last with
  | nil =>
    obtain rfl : s = ⟨last, t.length⟩ := by simpa [stretches] using hs
    simp
  | cons c chosen ih =>
    obtain ⟨b, markup⟩ := c
    simp only [List.forall_mem_cons] at inside after
    have next (c : Block × Text) (hc : c ∈ chosen) : b.span.stop ≤ c.1.span.start :=
      List.rel_of_pairwise_cons pairwise hc
    rw [stretches, List.mem_cons, List.mem_cons] at hs
    rcases hs with hs | hs | hs
    · cases hs
      refine ⟨le_rfl, List.forall_mem_cons.2 ⟨.inr le_rfl, fun c hc => .inr ?_⟩⟩
      exact inside.1.trans (next c hc)
    · cases hs
    · obtain ⟨start, apart⟩ := ih inside.2 next pairwise.of_cons hs
      exact ⟨after.1.trans (inside.1.trans start), List.forall_mem_cons.2 ⟨.inl start, apart⟩⟩

theorem float_mem {markup : Text} {line : Nat} (h : .float markup line ∈ stretches t last chosen) :
    ∃ b : Block, b.line = line ∧ (b, markup) ∈ chosen := by
  induction chosen generalizing last with
  | nil => simp [stretches] at h
  | cons c chosen ih =>
    obtain ⟨b, markup'⟩ := c
    rw [stretches, List.mem_cons, List.mem_cons] at h
    rcases h with h | h | h
    · cases h
    · cases h
      exact ⟨b, rfl, List.mem_cons_self⟩
    · obtain ⟨b', line, mem⟩ := ih h
      exact ⟨b', line, List.mem_cons_of_mem _ mem⟩

theorem visitedAt_of_mem (inside : ∀ c ∈ Flattened.chosen blocks images, c.1.span.start ≤ c.1.span.stop)
    (pairwise : (Flattened.chosen blocks images).Pairwise fun c d => c.1.span.stop ≤ d.1.span.start)
    (hr : r ∈ visited t blocks images) : VisitedAt t (Flattened.chosen blocks images) r := by
  obtain ⟨s, hs, hr⟩ := List.mem_flatMap.1 hr
  cases s with
  | gap s =>
    obtain ⟨-, apart⟩ := gap_apart inside (fun _ _ => Nat.zero_le _) pairwise hs
    have mem := hr
    simp only [Stretch.references, Reference.inSpan, Scan.found_map, List.mem_map] at hr
    obtain ⟨c, hc, rfl⟩ := hr
    have := Command.bounds_of_mem_inSpan hc
    refine .gap s mem rfl fun d hd => ?_
    rcases apart d hd with apart | apart
    · exact .inl (apart.trans this.1)
    · exact .inr (this.2.trans apart)
  | float markup line =>
    obtain ⟨b, rfl, mem⟩ := float_mem hs
    simp only [Stretch.references, Scan.found_map, List.mem_map] at hr
    obtain ⟨r', found, rfl⟩ := hr
    exact .float b markup mem r' found rfl

/-- Where the blocks to replace come one after the other and no reference to be visited is malformed, a
flattening reports references to nothing just if it visits some. The report has the targets that are not
registered, each once, at the line and in the order of the first visits; none is of a reference that stands only
in a block. -/
theorem ofText_reports
    (inside : ∀ c ∈ Flattened.chosen blocks images, c.1.span.start ≤ c.1.span.stop ∧ c.1.span.stop ≤ t.length)
    (pairwise : (Flattened.chosen blocks images).Pairwise fun c d => c.1.span.stop ≤ d.1.span.start)
    (wellformed : Wellformed t blocks images) :
    ((∃ u, ofText t n blocks images = .error (.fault (.undefinedReferences u))) ↔
        ∃ r ∈ visited t blocks images, n.get? r.target = none) ∧
      (∀ u, ofText t n blocks images = .error (.fault (.undefinedReferences u)) →
        u = ((Reference.firstVisits (visited t blocks images)).filter fun r => n.get? r.target = none).map
            Dangling.ofReference ∧
          (u.map Dangling.target).Nodup ∧
            ∀ target, target ∈ u.map Dangling.target ↔
              n.get? target = none ∧ ∃ r ∈ visited t blocks images, r.target = target) ∧
      ∀ r ∈ visited t blocks images, VisitedAt t (Flattened.chosen blocks images) r := by
  have apart : Apart t blocks images :=
    (fits_stretches_iff (Nat.zero_le _) inside).2 ⟨fun _ _ => Nat.zero_le _, pairwise⟩
  simp only [Numbering.get?_eq_none_iff]
  refine ⟨?_, fun u h => ?_, fun r => visitedAt_of_mem (fun c hc => (inside c hc).1) pairwise⟩
  · rcases ofText_eq (n := n) wellformed apart with ⟨⟨f, ok⟩, known⟩ | ⟨undefined, error, some, targets⟩
    · constructor
      · rintro ⟨u, error⟩
        rw [ok] at error
        cases error
      · rintro ⟨r, hr, unknown⟩
        exact absurd (known r hr) unknown
    · obtain ⟨d, hd⟩ := List.exists_mem_of_ne_nil undefined some
      obtain ⟨r, hr, eq, unknown⟩ := (targets d.target).1 (List.mem_map_of_mem hd)
      exact ⟨fun _ => ⟨r, hr, eq ▸ unknown⟩, fun _ => ⟨undefined, error⟩⟩
  · obtain ⟨-, list⟩ := (ofText_eq_undefined_iff apart wellformed).1 h
    refine ⟨list, ?_, fun target => ?_⟩
    · rw [list, List.map_map]
      exact (Reference.nodup_firstVisits _).sublist (List.filter_sublist.map _)
    · rcases ofText_eq (n := n) wellformed apart with ⟨⟨f, ok⟩, -⟩ | ⟨undefined, error, -, targets⟩
      · rw [ok] at h
        cases h
      · rw [error] at h
        cases h
        rw [targets]
        constructor
        · rintro ⟨r, hr, eq, unknown⟩
          exact ⟨unknown, r, hr, eq⟩
        · rintro ⟨unknown, r, hr, eq⟩
          exact ⟨r, hr, eq, unknown⟩

/-- References to nothing before a figure, in it and after it, and one more in what takes its place. -/
def astrayReferences : Text :=
  "\\ref\x7b z \x7d\n\n\\begin\x7bfigure\x7d\\ref\x7bw\x7d\\includegraphics\x7ba\x7d\\includegraphics\x7bb\x7d\\end\x7bfigure\x7d" ++
    "\n\\ref\x7by\x7d\\ref\x7bx\x7d\\ref\x7bz\x7d"

def astrayImages : List Replacement := [⟨0, "\n\\ref\x7bx\x7d"⟩]

theorem ofText_reports_astray : ∃ o, Outline.ofText astrayReferences = .ok o ∧ ∃ n, Numbering.ofOutline o = .ok n ∧
    ∃ blocks, Block.ofOutline false o = .ok blocks ∧
      ∃ u, ofText astrayReferences n blocks astrayImages = .error (.fault (.undefinedReferences u)) ∧
        u = [⟨"z", 1⟩, ⟨"x", 3⟩, ⟨"y", 4⟩] := by
  have good : ∃ o, Outline.ofText astrayReferences = .ok o ∧ ∃ n, Numbering.ofOutline o = .ok n ∧
      ∃ blocks, Block.ofOutline false o = .ok blocks ∧
        (∀ c ∈ Flattened.chosen blocks astrayImages, c.1.span.start ≤ c.1.span.stop ∧
          c.1.span.stop ≤ astrayReferences.length) ∧
        ((Flattened.chosen blocks astrayImages).Pairwise fun c d => c.1.span.stop ≤ d.1.span.start) ∧
        Wellformed astrayReferences blocks astrayImages ∧
        (∃ r ∈ visited astrayReferences blocks astrayImages, n.get? r.target = none) ∧
        ((Reference.firstVisits (visited astrayReferences blocks astrayImages)).filter fun r => n.get? r.target = none).map
          Dangling.ofReference = [⟨"z", 1⟩, ⟨"x", 3⟩, ⟨"y", 4⟩] := by
    decide +kernel
  obtain ⟨o, ho, n, hn, blocks, hb, inside, pairwise, wellformed, unknown, list⟩ := good
  obtain ⟨reported, report, -⟩ := ofText_reports (n := n) inside pairwise wellformed
  obtain ⟨u, hu⟩ := reported.2 unknown
  exact ⟨o, ho, n, hn, blocks, hb, u, hu, (report u hu).1.trans list⟩

end Flattened

end FloatFlattening
