import FloatFlattening.Proofs.Flattening.Float
import FloatFlattening.Proofs.Flattening.Unique
/-!
A text and another that is the same, but for its references and for lone figures in the places of
blocks. A search finds the same things between the blocks, and the lone figures' own in their places.
-/

namespace FloatFlattening.Flattened

open Text Command

/-- The searches that a numbering begins with. -/
def searches : List (List Text) := [["label"], ["begin", "end"]]

theorem searches_other : ∀ names ∈ searches, ∀ w ∈ Reference.commandNames, w ∉ names := by decide

variable {t t' : Text} {o : Outline} {places : Nat → Nat → Prop} {last last' : Nat} {b : Block}
  {bs : List Block} {names : List Text} {α : Type}

theorem stopped_of_lone {s : Span} {id : Text} {c f m : Command} (h : Figure.Lone t s id c f m)
    (hn : names ∈ searches) : (inSpan t s names).stopped = none := by
  simp only [searches, List.mem_cons, List.not_mem_nil, or_false] at hn
  rcases hn with rfl | rfl
  · rw [h.labels]
  · rw [h.delimiters]

/-- The rests of two texts, with the blocks to come, whose places lone figures take in the second. -/
inductive Laid (t : Text) (o : Outline) (t' : Text) (places : Nat → Nat → Prop) : Nat → Nat → List Block → Prop
  | gap {last last' : Nat} (rest : Span.Kept t t' places ⟨last, t.length⟩ ⟨last', t'.length⟩) :
      Laid t o t' places last last' []
  | float {last last' : Nat} {b : Block} {bs : List Block} {s' : Span} {e : Environment} {id : Text}
      {c f m : Command} (reads : b.Reads t o e) (name : b.name.id? = some id)
      (gap : Span.Kept t t' places ⟨last, b.span.start⟩ ⟨last', s'.start⟩)
      (closed : ∀ names ∈ searches, (inSpan t ⟨last, b.span.start⟩ names).stopped = none)
      (lone : Figure.Lone t' s' id c f m) (later : Laid t o t' places b.span.stop s'.stop bs) :
      Laid t o t' places last last' (b :: bs)

/-- A part that begins past a place and in none of the blocks. -/
def Clear (last : Nat) (bs : List Block) (s : Span) : Prop :=
  last ≤ s.start ∧ ∀ b ∈ bs, ¬ b.span.Holds s.start

/-- What is found in the place of a block: all that lay in the block, and all that is in the figure. -/
inductive Swap (t' : Text) (places : Nat → Nat → Prop) (span : α → Span) (read : Span → List α) (bs : List Block)
    (whole part part' : List α) : Prop
  | mk {b : Block} {s' : Span} {id : Text} {c f m : Command} (mem : b ∈ bs) (name : b.name.id? = some id)
      (stands : b.span.Matches places s') (lone : Figure.Lone t' s' id c f m)
      (inside : ∀ a ∈ part, b.span.Covers (span a)) (all : ∀ a ∈ whole, b.span.Covers (span a) → a ∈ part)
      (new : part' = read s') : Swap t' places span read bs whole part part'

/-- One step of a search of both texts: a gap, a block and the rest. -/
theorem woven_cons {span : α → Span} {R : α → α → Prop} {read : Span → List α} {s' : Span} {id : Text}
    {c f m : Command} {gap inside rest gap' rest' : List α} (fits : last ≤ b.span.start ∧ b.span.start < b.span.stop)
    (ordered : ∀ d ∈ bs, b.span.stop ≤ d.span.start) (proper : ∀ a ∈ gap ++ (inside ++ rest), (span a).start < (span a).stop)
    (first : ∀ a ∈ gap, last ≤ (span a).start ∧ (span a).stop ≤ b.span.start)
    (covered : ∀ a ∈ inside, b.span.Covers (span a)) (beyond : ∀ a ∈ rest, b.span.stop ≤ (span a).start)
    (kept : List.Forall₂ R gap gap') (name : b.name.id? = some id) (stands : b.span.Matches places s')
    (lone : Figure.Lone t' s' id c f m)
    (later : Woven (fun a a' => R a a' ∧ Clear b.span.stop bs (span a)) (Swap t' places span read bs rest) rest rest') :
    Woven (fun a a' => R a a' ∧ Clear last (b :: bs) (span a))
      (Swap t' places span read (b :: bs) (gap ++ (inside ++ rest)))
      (gap ++ (inside ++ rest)) (gap' ++ (read s' ++ rest')) := by
  have early : ∀ a ∈ gap ++ inside, (span a).stop ≤ b.span.stop := by
    intro a ha
    rcases List.mem_append.1 ha with ha | ha
    · have := first a ha
      omega
    · exact (covered a ha).2
  refine .cons ?_ ?_ (later.imp ?_ ?_)
  · refine ((List.forall₂_and_left _ _).2 ⟨fun a ha => ?_, kept⟩).imp fun a a' ha => ⟨ha.2, ha.1⟩
    have := first a ha
    have := proper a (List.mem_append_left _ ha)
    refine ⟨(first a ha).1, List.forall_mem_cons.2 ⟨fun holds => ?_, fun d hd holds => ?_⟩⟩
    · have := holds.1
      omega
    · have := ordered d hd
      have := holds.1
      omega
  · refine .mk List.mem_cons_self name stands lone covered (fun a ha covers => ?_) rfl
    have lt := proper a ha
    have := covers.1
    have := covers.2
    rcases List.mem_append.1 ha with ha | ha
    · have := first a ha
      omega
    · apply (List.mem_append.1 ha).resolve_right
      intro ha
      have := beyond a ha
      omega
  · rintro a a' ⟨ha, past, clear⟩
    refine ⟨ha, by omega, List.forall_mem_cons.2 ⟨fun holds => ?_, clear⟩⟩
    have := holds.2
    omega
  · rintro part part' ⟨mem, name, stands, lone, inside', all, new⟩
    refine .mk (List.mem_cons_of_mem b mem) name stands lone inside' (fun a ha covers => ?_) new
    rw [← List.append_assoc] at ha
    have lt := proper a (by rwa [← List.append_assoc])
    rcases List.mem_append.1 ha with ha | ha
    · have := early a ha
      have := ordered _ mem
      have := covers.1
      omega
    · exact all a ha covers

namespace Laid

theorem start (h : Laid t o t' places last last' bs) : places last last' := by
  cases h with
  | gap rest => exact rest.start
  | float _ _ gap => exact gap.start

theorem le_start (h : Laid t o t' places last last' bs) : ∀ b ∈ bs, last ≤ b.span.start := by
  induction h with
  | gap => simp
  | float reads name gap closed lone later ih =>
    have le := gap.start_le_stop.1
    have lt := reads.start_lt_stop
    exact List.forall_mem_cons.2 ⟨le, fun d hd => (le.trans lt.le).trans (ih d hd)⟩

theorem le_length (h : Laid t o t' places last last' bs) : last' ≤ t'.length := by
  induction h with
  | gap rest => exact rest.start_le_stop.2
  | @float last last' b bs s' e id c f m reads name gap closed lone later ih =>
    have : last' ≤ s'.start := gap.start_le_stop.2
    have := lone.start_lt_stop
    omega

end Laid

section

variable {s' : Span} {e : Environment} {id : Text} {c f m : Command} (reads : b.Reads t o e)
  (gap : Span.Kept t t' places ⟨last, b.span.start⟩ ⟨last', s'.start⟩) (hn : names ∈ searches)
  (closed : (inSpan t ⟨last, b.span.start⟩ names).stopped = none) (free : escapes (t.take last) = false)

include reads gap free

theorem escapes_gap : escapes (t.slice ⟨last, b.span.start⟩) = false := by
  obtain ⟨k, hk⟩ := Nat.exists_eq_add_of_le gap.start_le_stop.1
  dsimp only at hk
  rw [hk, slice_eq_take, escapes_drop_take free, ← hk, reads.escapes_start]

include closed

/-- The first text, searched up to a block, in it and past it. -/
theorem exists_inSpan_eq_block (whole : (inSpan t ⟨last, t.length⟩ names).stopped = none)
    (apart : ∀ c ∈ (inSpan t ⟨last, t.length⟩ names).found, b.span.stop ≤ c.span.start ∨ c.span.stop ≤ b.span.stop) :
    ∃ inside, inSpan t ⟨last, t.length⟩ names =
        ⟨(inSpan t ⟨last, b.span.start⟩ names).found ++ (inside ++ (inSpan t ⟨b.span.stop, t.length⟩ names).found), none⟩ ∧
      (∀ c ∈ inside, b.span.Covers c.span) ∧ (inSpan t ⟨b.span.stop, t.length⟩ names).stopped = none := by
  have le : last ≤ b.span.start := gap.start_le_stop.1
  have lt := reads.start_lt_stop
  have stop : b.span.stop ≤ t.length := reads.span ▸ reads.lies.stop_le
  have slash := reads.head?_drop_start
  have left : Seam (t.slice ⟨last, b.span.start⟩) (t.drop b.span.start) :=
    .of_head (escapes_gap reads gap free) fun c hc => by
      rw [slash] at hc
      exact Option.some.inj hc ▸ rfl
  have right : Seam (t.slice ⟨b.span.start, b.span.stop⟩) (t.drop b.span.stop) := by
    obtain ⟨d, hd, span⟩ := reads.lies.ends
    rw [Environment.delimiters, all_eq_inSpan] at hd
    have stop : d.span.stop = b.span.stop := by rw [span, reads.span]
    exact stop ▸ seam_stop hd (stop ▸ lt) _
  have first := inSpan_append le (lt.le.trans stop) closed left
  rw [first] at whole apart ⊢
  obtain ⟨inside, second, early⟩ := exists_inSpan_eq lt.le stop (by simpa [closed] using whole) right
    fun c hc => apart c (List.mem_append_right _ hc)
  have rest : (inSpan t ⟨b.span.stop, t.length⟩ names).stopped = none := by simpa [closed, second] using whole
  refine ⟨inside, ?_, fun c hc => ⟨?_, early c hc⟩, rest⟩
  · rw [second, Scan.append_eq closed (by simpa using rest)]
    rfl
  · have mem : c ∈ (inSpan t ⟨b.span.start, t.length⟩ names).found := by simp [second, hc]
    exact (bounds_of_mem_inSpan mem).1

include hn

/-- The second text, searched up to a lone figure, in it and past it. -/
theorem inSpan_eq_lone (lone : Figure.Lone t' s' id c f m) (later : Laid t o t' places b.span.stop s'.stop bs) :
    inSpan t' ⟨last', t'.length⟩ names =
      inSpan t' ⟨last', s'.start⟩ names ++ (inSpan t' s' names ++ inSpan t' ⟨s'.stop, t'.length⟩ names) := by
  have le : last' ≤ s'.start := gap.start_le_stop.2
  have stop := later.le_length
  have lt := lone.start_lt_stop
  have kept := (gap.matches_commands names (searches_other names hn)).stopped.1 closed
  have left : Seam (t'.slice ⟨last', s'.start⟩) (t'.drop s'.start) := by
    have := seam_start (t := t'.slice ⟨last', s'.start⟩) lone.mem_begin (gap.escapes_eq ▸ escapes_gap reads gap free)
    rwa [lone.start] at this
  have right : Seam (t'.slice ⟨s'.start, s'.stop⟩) (t'.drop s'.stop) := by
    have := seam_stop lone.mem_end (lone.stop.symm ▸ lt) (t'.drop s'.stop)
    rwa [lone.stop] at this
  rw [inSpan_append le (by omega) kept left, inSpan_append lt.le stop (stopped_of_lone lone hn) right]

end

theorem Laid.woven_commands (h : Laid t o t' places last last' bs) (hn : names ∈ searches)
    (free : escapes (t.take last) = false) (whole : (inSpan t ⟨last, t.length⟩ names).stopped = none)
    (apart : ∀ c ∈ (inSpan t ⟨last, t.length⟩ names).found, ∀ b ∈ bs,
      b.span.stop ≤ c.span.start ∨ c.span.stop ≤ b.span.stop) :
    Woven (fun c c' => c.Matches places c' ∧ Clear last bs c.span)
      (Swap t' places Command.span (fun s => (inSpan t' s names).found) bs (inSpan t ⟨last, t.length⟩ names).found)
      (inSpan t ⟨last, t.length⟩ names).found (inSpan t' ⟨last', t'.length⟩ names).found := by
  induction h with
  | gap rest =>
    refine .last (((List.forall₂_and_left _ _).2
      ⟨fun c hc => ?_, (rest.matches_commands names (searches_other names hn)).found⟩).imp fun c c' hc => ⟨hc.2, hc.1⟩)
    exact ⟨(bounds_of_mem_inSpan hc).1, by simp⟩
  | @float last last' b bs s' e id c f m reads name gap closed lone later ih =>
    obtain ⟨inside, eq, covered, whole'⟩ := exists_inSpan_eq_block reads gap (closed names hn) free whole
      fun c hc => apart c hc b List.mem_cons_self
    have proper : ∀ c ∈ (inSpan t ⟨last, t.length⟩ names).found, c.span.start < c.span.stop :=
      fun c hc => Nat.lt_of_succ_lt (start_lt_stop hc)
    rw [eq] at apart proper ⊢
    rw [inSpan_eq_lone reads gap hn (closed names hn) free lone later]
    have lt := reads.start_lt_stop
    refine woven_cons ⟨gap.start_le_stop.1, lt⟩ later.le_start proper (fun c hc => bounds_of_mem_inSpan hc) covered
      (fun c hc => (bounds_of_mem_inSpan hc).1) (gap.matches_commands names (searches_other names hn)).found name
      ⟨gap.stop, later.start⟩ lone ?_
    refine ih reads.escapes_stop whole' fun c hc d hd => apart c ?_ d (List.mem_cons_of_mem b hd)
    exact List.mem_append_right _ (List.mem_append_right _ hc)

open Environment in
/-- Commands before a block, in it and past it make environments of their own. -/
theorem exists_pair_eq {gap inside rest : List Command}
    (whole : (pair names none (gap ++ (inside ++ rest))).stopped = none)
    (proper : ∀ c ∈ gap ++ (inside ++ rest), c.span.start < c.span.stop)
    (first : ∀ c ∈ gap, c.span.stop ≤ b.span.start) (covered : ∀ c ∈ inside, b.span.Covers c.span)
    (beyond : ∀ c ∈ rest, b.span.stop ≤ c.span.start) (lt : b.span.start < b.span.stop)
    (apart : ∀ e ∈ (pair names none (gap ++ (inside ++ rest))).found,
      e.span.stop ≤ b.span.start ∨ b.span.Covers e.span ∨ b.span.stop ≤ e.span.start) :
    ∃ es, (pair names none (gap ++ (inside ++ rest))).found =
        (pair names none gap).found ++ (es ++ (pair names none rest).found) ∧
      (∀ e ∈ es, b.span.Covers e.span) ∧ (pair names none gap).stopped = none ∧
        (pair names none rest).stopped = none := by
  have closed : (pair names none gap).stopped = none := by
    refine stopped_pair_left b.span.start whole (fun c hc => ?_) (fun c hc => ?_) fun e he => ?_
    · exact (proper c (List.mem_append_left _ hc)).trans_le (first c hc)
    · have := proper c (List.mem_append_right _ hc)
      rcases List.mem_append.1 hc with hc | hc
      · exact (covered c hc).1.trans_lt this
      · have := beyond c hc
        omega
    · rcases apart e he with early | covers | late
      · exact .inl early
      · exact .inr covers.1
      · exact .inr (lt.le.trans late)
  rw [pair_append closed] at whole apart ⊢
  have whole : (pair names none (inside ++ rest)).stopped = none := by simpa [closed] using whole
  have closed' : (pair names none inside).stopped = none := by
    refine stopped_pair_left b.span.stop whole (fun c hc => ?_) (fun c hc => ?_) fun e he => ?_
    · exact (proper c (by simp [hc])).trans_le (covered c hc).2
    · exact (beyond c hc).trans_lt (proper c (by simp [hc]))
    · rcases apart e (List.mem_append_right _ he) with early | covers | late
      · exact .inl (early.trans lt.le)
      · exact .inl covers.2
      · exact .inr late
  rw [pair_append closed'] at whole ⊢
  refine ⟨_, rfl, fun e he => ?_, closed, by simpa [closed'] using whole⟩
  obtain ⟨d, f, sub, span, -⟩ := joins_of_mem_pair he
  rw [span]
  exact ⟨(covered d (sub.subset List.mem_cons_self)).1, (covered f (sub.subset (by simp))).2⟩

theorem Laid.woven_environments (h : Laid t o t' places last last' bs) (hn : ∀ name ∈ names, '\\' ∉ name)
    (free : escapes (t.take last) = false)
    (delimited : (inSpan t ⟨last, t.length⟩ ["begin", "end"]).stopped = none)
    (whole : (Environment.inSpan t ⟨last, t.length⟩ names).stopped = none)
    (apart : ∀ c ∈ (inSpan t ⟨last, t.length⟩ ["begin", "end"]).found, ∀ b ∈ bs,
      b.span.stop ≤ c.span.start ∨ c.span.stop ≤ b.span.stop)
    (apart' : ∀ e ∈ (Environment.inSpan t ⟨last, t.length⟩ names).found, ∀ b ∈ bs,
      e.span.stop ≤ b.span.start ∨ b.span.Covers e.span ∨ b.span.stop ≤ e.span.start) :
    Woven (fun e e' => Environment.Kept t t' places e e' ∧ Clear last bs e.span)
      (Swap t' places Environment.span (fun s => (Environment.inSpan t' s names).found) bs
        (Environment.inSpan t ⟨last, t.length⟩ names).found)
      (Environment.inSpan t ⟨last, t.length⟩ names).found
      (Environment.inSpan t' ⟨last', t'.length⟩ names).found := by
  induction h with
  | gap rest =>
    refine .last (((List.forall₂_and_left _ _).2 ⟨fun e he => ?_, (rest.environments hn).found⟩).imp
      fun e e' he => ⟨he.2, he.1⟩)
    exact ⟨(Environment.bounds_of_mem_inSpan he).1, by simp⟩
  | @float last last' b bs s' e id c f m reads name gap closed lone later ih =>
    have searched : (["begin", "end"] : List Text) ∈ searches := by decide
    have closed := closed _ searched
    obtain ⟨inside, eq, covered, delimited'⟩ := exists_inSpan_eq_block reads gap closed free delimited
      fun c hc => apart c hc b List.mem_cons_self
    have lt := reads.start_lt_stop
    have proper : ∀ c ∈ (inSpan t ⟨last, t.length⟩ ["begin", "end"]).found, c.span.start < c.span.stop :=
      fun c hc => Nat.lt_of_succ_lt (start_lt_stop hc)
    have proper' : ∀ e ∈ (Environment.inSpan t ⟨last, t.length⟩ names).found, e.span.start < e.span.stop :=
      fun e he => (Environment.bounds_of_mem_inSpan he).2.1
    have old := Environment.inSpan_eq delimited names
    have found := congrArg Scan.found eq
    dsimp only at found
    rw [found] at apart proper old
    rw [old] at whole apart' proper' ⊢
    obtain ⟨es, parts, coveredE, closedE, wholeE⟩ := exists_pair_eq whole proper
      (fun c hc => (bounds_of_mem_inSpan hc).2) covered (fun c hc => (bounds_of_mem_inSpan hc).1) lt
      fun e he => apart' e he b List.mem_cons_self
    rw [← Environment.inSpan_eq closed] at parts closedE
    rw [← Environment.inSpan_eq delimited'] at parts wholeE
    rw [parts] at apart' proper' ⊢
    have kept := gap.environments hn
    have new : Environment.inSpan t' ⟨last', t'.length⟩ names = Environment.inSpan t' ⟨last', s'.start⟩ names ++
        (Environment.inSpan t' s' names ++ Environment.inSpan t' ⟨s'.stop, t'.length⟩ names) := by
      have commands := gap.matches_commands ["begin", "end"] (by decide)
      have figure : (Environment.inSpan t' s' names).stopped = none := by
        by_cases mem : ("figure" : Text) ∈ names
        · rw [lone.environments_eq mem]
        · rw [lone.environments_eq_nil mem]
      rw [Environment.inSpan, inSpan_eq_lone reads gap searched closed free lone later,
        Environment.ofCommands_append (commands.stopped.1 closed) (kept.stopped.1 closedE),
        Environment.ofCommands_append (stopped_of_lone lone searched) figure]
      rfl
    rw [new]
    refine woven_cons ⟨gap.start_le_stop.1, lt⟩ later.le_start proper' (fun e he => ?_) coveredE (fun e he => ?_)
      kept.found name ⟨gap.stop, later.start⟩ lone ?_
    · have := Environment.bounds_of_mem_inSpan he
      exact ⟨this.1, this.2.2⟩
    · exact (Environment.bounds_of_mem_inSpan he).1
    · refine ih reads.escapes_stop delimited' wholeE (fun c hc d hd => ?_) fun e he d hd => ?_
      · exact apart c (List.mem_append_right _ (List.mem_append_right _ hc)) d (List.mem_cons_of_mem b hd)
      · exact apart' e (List.mem_append_right _ (List.mem_append_right _ he)) d (List.mem_cons_of_mem b hd)

end FloatFlattening.Flattened
