import FloatFlattening.Flattening.Basic
import FloatFlattening.Proofs.Except
/-!
The stretches of a flattened document: what stands between the blocks, and the floats that take
their places. Each is made from its own text alone, and the document is made of them in order.
-/

namespace FloatFlattening

namespace Passage

def empty : Passage := ⟨[], [], 0⟩

def join (ps : List Passage) : Passage := ps.foldr (· ++ ·) empty

@[simp] theorem append_empty (p : Passage) : p ++ empty = p := by
  cases p with
  | mk text visits directives =>
    change (⟨text ++ [], visits ++ [], directives⟩ : Passage) = _
    rw [List.append_nil, List.append_nil]

theorem append_assoc (p q r : Passage) : p ++ q ++ r = p ++ (q ++ r) := by
  change (⟨p.text ++ q.text ++ r.text, p.visits ++ q.visits ++ r.visits,
    p.directives + q.directives + r.directives⟩ : Passage) = _
  rw [List.append_assoc, List.append_assoc, Nat.add_assoc]
  rfl

@[simp] theorem join_nil : join [] = empty := rfl

@[simp] theorem join_cons (p : Passage) (ps : List Passage) : join (p :: ps) = p ++ join ps := rfl

@[simp] theorem visits_append (p q : Passage) : (p ++ q).visits = p.visits ++ q.visits := rfl

@[simp] theorem text_append (p q : Passage) : (p ++ q).text = p.text ++ q.text := rfl

@[simp] theorem directives_append (p q : Passage) :
    (p ++ q).directives = p.directives + q.directives := rfl

theorem visits_join (ps : List Passage) : (join ps).visits = ps.flatMap visits := by
  induction ps with
  | nil => rfl
  | cons p ps ih => simp [ih]

theorem text_join (ps : List Passage) : (join ps).text = ps.flatMap text := by
  induction ps with
  | nil => rfl
  | cons p ps ih => simp [ih]

theorem directives_join (ps : List Passage) : (join ps).directives = (ps.map directives).sum := by
  induction ps with
  | nil => rfl
  | cons p ps ih => simp [ih]

end Passage

namespace Flattened

inductive Stretch
  | gap (s : Span)
  /-- The float for a block at a line. -/
  | float (markup : Text) (line : Nat)

namespace Stretch

/-- The references visited in a stretch; those of a float count as being on the line of the block. -/
def references (t : Text) : Stretch → Scan Reference
  | gap s => Reference.inSpan t s
  | float markup line => (Reference.all markup).map fun r => { r with line }

/-- A gap lies in the text, with its end after its start. -/
def Fits (t : Text) : Stretch → Prop
  | gap s => s.start ≤ s.stop ∧ s.stop ≤ t.length
  | float _ _ => True

theorem fits_gap_iff {t : Text} {s : Span} :
    (gap s).Fits t ↔ ¬ (s.stop < s.start ∨ t.length < s.stop) := by
  simp [Fits, not_or]

def visit (n : Numbering) (flattened : List Text) (r : Reference) : Visit :=
  .of n flattened r.target r.line

/-- What a stretch becomes. -/
def passage (n : Numbering) (flattened : List Text) (t : Text) (s : Stretch) : Passage :=
  let references := (s.references t).found
  match s with
  | gap s =>
    let text := exchange t s (visit n flattened) references
    ⟨Directive.erase text, references.map (visit n flattened), Directive.count text⟩
  | float markup _ =>
    ⟨exchange markup ⟨0, markup.length⟩ (visit n flattened) references,
      references.map (visit n flattened), 0⟩

theorem visits_passage (n : Numbering) (flattened : List Text) (t : Text) (s : Stretch) :
    (s.passage n flattened t).visits = (s.references t).found.map (visit n flattened) := by
  cases s <;> rfl

end Stretch

variable {n : Numbering} {flattened : List Text} {t : Text} {last : Nat}
  {chosen : List (Block × Text)}

/-- The stretches from `last` on, with the given blocks still to come. -/
def stretches (t : Text) : (last : Nat) → List (Block × Text) → List Stretch
  | last, [] => [.gap ⟨last, t.length⟩]
  | last, (b, markup) :: rest =>
    .gap ⟨last, b.span.start⟩ :: .float markup b.line :: stretches t b.span.stop rest

theorem gap_eq (n : Numbering) (flattened : List Text) (t : Text) (s : Span) :
    gap n flattened t s =
      if s.stop < s.start ∨ t.length < s.stop then .error .overlap
      else match ((Stretch.gap s).references t).stopped with
        | none => .ok ((Stretch.gap s).passage n flattened t)
        | some m => .error (.fault (m.fault t)) := by
  rw [gap]
  split
  · rfl
  · simp only [Stretch.references, Scan.complete]
    cases (Reference.inSpan t s).stopped <;> rfl

theorem replacement_eq (n : Numbering) (flattened : List Text) (t markup : Text) (line : Nat) :
    replacement n flattened markup line =
      match ((Stretch.float markup line).references t).stopped with
      | none => .ok ((Stretch.float markup line).passage n flattened t)
      | some m => .error (.fault (m.fault markup)) := by
  simp only [replacement, Stretch.references, Scan.complete, Scan.stopped_map]
  cases (Reference.all markup).stopped with
  | none =>
    simp only [Stretch.passage, Stretch.references, Scan.found_map, exchange, List.map_map]
    rfl
  | some m => rfl

/-- The text is made of its stretches when they all fit and no search of one is stopped. -/
theorem passage_eq_ok (fits : ∀ s ∈ stretches t last chosen, s.Fits t)
    (whole : ∀ s ∈ stretches t last chosen, (s.references t).stopped = none) :
    passage n flattened t last chosen =
      .ok (.join ((stretches t last chosen).map (Stretch.passage n flattened t))) := by
  induction chosen generalizing last with
  | nil =>
    have fits := fits (.gap ⟨last, t.length⟩) (by simp [stretches])
    rw [passage, gap_eq, if_neg (Stretch.fits_gap_iff.1 fits), whole _ (by simp [stretches])]
    simp [stretches]
  | cons c chosen ih =>
    obtain ⟨b, markup⟩ := c
    simp only [stretches, List.forall_mem_cons] at fits whole
    obtain ⟨fits, -, later⟩ := fits
    obtain ⟨whole, whole', whole''⟩ := whole
    rw [passage, gap_eq, if_neg (Stretch.fits_gap_iff.1 fits), whole, replacement_eq (t := t), whole',
      ih later whole'']
    simp only [stretches, List.map_cons, Passage.join_cons, ← Passage.append_assoc]
    rfl

theorem passage_eq_overlap (apart : ¬ ∀ s ∈ stretches t last chosen, s.Fits t)
    (whole : ∀ s ∈ stretches t last chosen, (s.references t).stopped = none) :
    passage n flattened t last chosen = .error .overlap := by
  induction chosen generalizing last with
  | nil =>
    have : t.length < last := by simpa [stretches, Stretch.Fits] using apart
    rw [passage, gap_eq, if_pos (.inl this)]
  | cons c chosen ih =>
    obtain ⟨b, markup⟩ := c
    simp only [stretches, List.forall_mem_cons] at apart whole
    obtain ⟨whole, whole', later⟩ := whole
    rw [passage, gap_eq]
    split
    next => rfl
    next fits =>
      have apart : ¬ ∀ s ∈ stretches t b.span.stop chosen, s.Fits t :=
        fun fits' => apart ⟨Stretch.fits_gap_iff.2 fits, trivial, fits'⟩
      rw [whole, replacement_eq (t := t), whole', ih apart later]
      rfl

theorem fits_of_passage {p : Passage} (h : passage n flattened t last chosen = .ok p) :
    ∀ s ∈ stretches t last chosen, s.Fits t ∧ (s.references t).stopped = none := by
  induction chosen generalizing last p with
  | nil =>
    rw [passage, gap_eq] at h
    split at h
    · cases h
    next fits =>
      cases whole : ((Stretch.gap ⟨last, t.length⟩).references t).stopped with
      | some m => simp [whole] at h
      | none => simpa [stretches, whole] using Stretch.fits_gap_iff.2 fits
  | cons c chosen ih =>
    obtain ⟨b, markup⟩ := c
    rw [passage, gap_eq, Except.bind_eq_ok_iff] at h
    obtain ⟨before, hb, h⟩ := h
    obtain ⟨here, hh, h⟩ := Except.bind_eq_ok_iff.1 h
    obtain ⟨after, ha, -⟩ := Except.bind_eq_ok_iff.1 h
    rw [replacement_eq (t := t)] at hh
    split at hb
    · cases hb
    next fits =>
      cases whole : ((Stretch.gap ⟨last, b.span.start⟩).references t).stopped with
      | some m => simp [whole] at hb
      | none =>
        cases whole' : ((Stretch.float markup b.line).references t).stopped with
        | some m => simp [whole'] at hh
        | none =>
          simp only [stretches, List.forall_mem_cons]
          exact ⟨⟨Stretch.fits_gap_iff.2 fits, whole⟩, ⟨trivial, whole'⟩, ih ha⟩


end Flattened

end FloatFlattening
