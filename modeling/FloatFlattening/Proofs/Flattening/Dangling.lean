import FloatFlattening.Proofs.Flattening.Stretch
import FloatFlattening.Proofs.Numbering.Total
/-!
Which references a flattening accepts. A label made up for a figure is accepted like one of the
text, although the figure may keep its place and then nothing sets the label.
-/

namespace FloatFlattening

open Numbering

namespace Dangling

theorem mem_firsts {ds : List Dangling} {target : Text} :
    target ∈ (firsts ds).map Dangling.target ↔ target ∈ ds.map Dangling.target := by
  induction ds with
  | nil => rfl
  | cons d ds ih =>
    simp only [firsts, List.map_cons, List.mem_cons, ← ih]
    by_cases h : target = d.target
    · simp [h]
    · simp only [h, false_or, List.mem_map, List.mem_filter]
      constructor
      · rintro ⟨e, ⟨he, -⟩, rfl⟩
        exact ⟨e, he, rfl⟩
      · rintro ⟨e, he, rfl⟩
        exact ⟨e, ⟨he, by simpa using h⟩, rfl⟩

theorem firsts_eq_nil {ds : List Dangling} : firsts ds = [] ↔ ds = [] := by
  cases ds <;> simp [firsts]

end Dangling

theorem Visit.dangling?_of (n : Numbering) (flattened : List Text) (target : Text) (line : Nat) :
    (of n flattened target line).dangling? =
      if target ∈ n.ids then none else some ⟨target, line⟩ := by
  cases h : n.get? target with
  | none => simp [of, h, dangling?, get?_eq_none_iff.1 h]
  | some l =>
    rw [if_pos (mem_ids_of_get? h)]
    simp only [of, h]
    cases n.exchanged? flattened l <;> rfl

namespace Outline

/-- A label of the text, or one that came to be registered with a figure. -/
def Knows (o : Outline) (target : Text) : Prop :=
  target ∈ (Mark.all o.text).found.map Mark.id ∨
    ∃ f ∈ o.figures, f.made? = some target ∨ ∃ m ∈ f.visited, m.id = target

theorem Reads.knows_iff {t : Text} {o : Outline} {n : Numbering} (h : Reads t o)
    (numbering : ofOutline o = .ok n) {target : Text} : o.Knows target ↔ target ∈ n.ids := by
  rw [← map_id_entries, (registers_of_ofOutline numbering).entries, h.mem_ids_entries, h.marks,
    ← h.text]
  rfl

end Outline

namespace Flattened

variable {t : Text} {n : Numbering} {blocks : List Block} {images : List Replacement}

/-- The references that a flattening visits. -/
def visited (t : Text) (blocks : List Block) (images : List Replacement) : List Reference :=
  (stretches t 0 (chosen blocks images)).flatMap fun s => (s.references t).found

/-- No stretch holds a malformed reference. -/
def Wellformed (t : Text) (blocks : List Block) (images : List Replacement) : Prop :=
  ∀ s ∈ stretches t 0 (chosen blocks images), (s.references t).stopped = none

/-- The blocks to be replaced lie in the text, one after the other. -/
def Apart (t : Text) (blocks : List Block) (images : List Replacement) : Prop :=
  ∀ s ∈ stretches t 0 (chosen blocks images), s.Fits t

theorem dangling_visits (n : Numbering) (flattened : List Text) (rs : List Reference) :
    (rs.map (Stretch.visit n flattened)).filterMap Visit.dangling? =
      (rs.filter fun r => r.target ∉ n.ids).map fun r => ⟨r.target, r.line⟩ := by
  induction rs with
  | nil => rfl
  | cons r rs ih =>
    rw [List.map_cons, List.filterMap_cons, Stretch.visit, Visit.dangling?_of, ih]
    by_cases h : r.target ∈ n.ids <;> simp [h]

theorem ofText_eq_overlap (wellformed : Wellformed t blocks images)
    (apart : ¬ Apart t blocks images) : ofText t n blocks images = .error .overlap := by
  simp only [ofText]
  rw [passage_eq_overlap apart wellformed]
  rfl

/-- The visits of a document of stretches are those of its references, in order. -/
theorem visits_passages (n : Numbering) (flattened : List Text) (t : Text) (ss : List Stretch) :
    (Passage.join (ss.map (Stretch.passage n flattened t))).visits =
      (ss.flatMap fun s => (s.references t).found).map (Stretch.visit n flattened) := by
  rw [Passage.visits_join, List.flatMap_map, List.map_flatMap]
  exact List.flatMap_congr fun s _ => s.visits_passage n flattened t

/-- A flattening stands or falls with the targets of the references visited. -/
theorem ofText_eq (wellformed : Wellformed t blocks images) (apart : Apart t blocks images) :
    (∃ f, ofText t n blocks images = .ok f) ∧
        (∀ r ∈ visited t blocks images, r.target ∈ n.ids) ∨
      ∃ undefined, ofText t n blocks images = .error (.fault (.undefinedReferences undefined)) ∧
        undefined ≠ [] ∧ ∀ target, target ∈ undefined.map Dangling.target ↔
          ∃ r ∈ visited t blocks images, r.target = target ∧ target ∉ n.ids := by
  simp only [ofText]
  rw [passage_eq_ok apart wellformed]
  simp only [Except.ok_bind, visits_passages, dangling_visits]
  split
  next none =>
    refine .inl ⟨⟨_, rfl⟩, fun r hr => ?_⟩
    rw [Dangling.firsts_eq_nil, List.map_eq_nil_iff, List.filter_eq_nil_iff] at none
    simpa using none r hr
  next some =>
    refine .inr ⟨_, rfl, some, fun target => ?_⟩
    rw [Dangling.mem_firsts, List.map_map]
    simp only [List.mem_map, List.mem_filter, decide_eq_true_eq, Function.comp]
    constructor
    · rintro ⟨r, ⟨hr, undefined⟩, rfl⟩
      exact ⟨r, hr, rfl, undefined⟩
    · rintro ⟨r, hr, rfl, undefined⟩
      exact ⟨r, ⟨hr, undefined⟩, rfl⟩

/-- What has been flattened has no reference to a name that is not known. -/
theorem known_of_ofText {f : Flattened} (h : ofText t n blocks images = .ok f) :
    ∀ r ∈ visited t blocks images, r.target ∈ n.ids := by
  obtain ⟨p, passage, -⟩ := Except.bind_eq_ok_iff.1 h
  have fits := fits_of_passage passage
  rcases ofText_eq (n := n) (fun s hs => (fits s hs).2) (fun s hs => (fits s hs).1) with ⟨-, known⟩ | ⟨_, error, -⟩
  · exact known
  · rw [h] at error
    cases error

/-- A flattening succeeds when all references are to names that are known. Otherwise those that are
not known are reported. -/
theorem ofText_total {o : Outline} (outline : Outline.ofText t = .ok o)
    (numbering : ofOutline o = .ok n) (wellformed : Wellformed t blocks images) :
    (Apart t blocks images →
        ((∃ f, ofText t n blocks images = .ok f) ↔
          ∀ r ∈ visited t blocks images, o.Knows r.target) ∧
        ∀ e, ofText t n blocks images = .error e →
          ∃ undefined, e = .fault (.undefinedReferences undefined) ∧
            ∀ target, target ∈ undefined.map Dangling.target ↔
              ∃ r ∈ visited t blocks images, r.target = target ∧ ¬ o.Knows target) ∧
      (¬ Apart t blocks images → ofText t n blocks images = .error .overlap) := by
  have reads := Outline.reads_of_ofText outline
  simp only [reads.knows_iff numbering]
  refine ⟨fun apart => ?_, ofText_eq_overlap wellformed⟩
  rcases ofText_eq (n := n) wellformed apart with ⟨⟨f, ok⟩, known⟩ | ⟨undefined, error, some, targets⟩
  · refine ⟨⟨fun _ => known, fun _ => ⟨f, ok⟩⟩, fun e he => ?_⟩
    rw [ok] at he
    cases he
  · refine ⟨⟨?_, fun known => ?_⟩, fun e he => ?_⟩
    · rintro ⟨f, ok⟩
      rw [error] at ok
      cases ok
    · obtain ⟨d, hd⟩ := List.exists_mem_of_ne_nil undefined some
      obtain ⟨r, hr, eq, not⟩ := (targets d.target).1 (List.mem_map_of_mem hd)
      exact absurd (eq ▸ known r hr) not
    · rw [error] at he
      obtain rfl := Except.error.inj he
      exact ⟨undefined, rfl, targets⟩

instance (t : Text) : DecidablePred (Stretch.Fits t)
  | .gap s => inferInstanceAs (Decidable (s.start ≤ s.stop ∧ s.stop ≤ t.length))
  | .float _ _ => .isTrue trivial

instance : Decidable (Wellformed t blocks images) :=
  inferInstanceAs (Decidable (∀ s ∈ stretches t 0 (chosen blocks images), _))

instance : Decidable (Apart t blocks images) :=
  inferInstanceAs (Decidable (∀ s ∈ stretches t 0 (chosen blocks images), _))

/-- A figure of two images, and references to it and to nothing. -/
def sample : Text :=
  "\\begin\x7bfigure\x7d\\includegraphics\x7ba\x7d\\includegraphics\x7bb\x7d\\label\x7bf\x7d" ++
    "\\end\x7bfigure\x7d\\ref\x7bf\x7d\\ref\x7bg\x7d"

def sampleImages : List Replacement := [⟨0, "\\label\x7bf\x7d\\ref\x7bf\x7d"⟩]

theorem ofText_total_sample : ∃ o, Outline.ofText sample = .ok o ∧ ∃ n, ofOutline o = .ok n ∧
    ∃ blocks, Block.ofOutline false o = .ok blocks ∧
      Wellformed sample blocks sampleImages ∧ Apart sample blocks sampleImages ∧
        ¬ ∃ f, ofText sample n blocks sampleImages = .ok f := by
  have good : ∃ o, Outline.ofText sample = .ok o ∧ ∃ n, ofOutline o = .ok n ∧
      ∃ blocks, Block.ofOutline false o = .ok blocks ∧
        Wellformed sample blocks sampleImages ∧ Apart sample blocks sampleImages ∧
          ∃ r ∈ visited sample blocks sampleImages, r.target ∉ n.ids := by
    decide +kernel
  obtain ⟨o, ho, n, hn, blocks, hb, wellformed, apart, r, hr, undefined⟩ := good
  refine ⟨o, ho, n, hn, blocks, hb, wellformed, apart, fun ok => undefined ?_⟩
  have known := ((ofText_total ho hn wellformed).1 apart).1.1 ok r hr
  rwa [(Outline.reads_of_ofText ho).knows_iff hn] at known

/-- A figure with one panel keeps its place, and the name made up for it is set nowhere. -/
def kept : Text :=
  "\\begin\x7bfigure\x7d\\subfloat\x7b\\label\x7ba\x7d\x7d\\end\x7bfigure\x7d\\ref\x7bfig:multifig1\x7d"

theorem ofText_accepts_made_up : ∃ o, Outline.ofText kept = .ok o ∧ ∃ n, ofOutline o = .ok n ∧
    Block.ofOutline false o = .ok [] ∧ (∃ f, ofText kept n [] [] = .ok f ∧ f.text = kept) ∧
      ∃ r ∈ visited kept [] [], r.target ∉ (Mark.all kept).found.map Mark.id := by
  decide +kernel

end Flattened

end FloatFlattening
