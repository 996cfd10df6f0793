import FloatFlattening.Proofs.Markup.Environment
/-!
Environments are paired and outermost. Between the two commands of one, its name is balanced; and each
beginning of a listed name lies in one that is found, or has no end, and then the search ends early. The
commands are those that a search for `\begin` and `\end` finds: one in an argument of another is none of them.
-/

namespace FloatFlattening.Environment

variable {names : List Text} {name : Text} {depth : Nat} {cs ds rest : List Command} {b c f : Command}
  {e : Environment}

def Begins (name : Text) (c : Command) : Prop := c.name = "begin" ∧ c.argument.trim = name

def Ends (name : Text) (c : Command) : Prop := c.name = "end" ∧ c.argument.trim = name

instance : DecidablePred (Begins name) := fun _ => inferInstanceAs (Decidable (_ ∧ _))

instance : DecidablePred (Ends name) := fun _ => inferInstanceAs (Decidable (_ ∧ _))

def begun (name : Text) (cs : List Command) : Nat := cs.countP (Begins name ·)

def ended (name : Text) (cs : List Command) : Nat := cs.countP (Ends name ·)

/-- With `depth` environments of a name open before them, commands end these and as many as they begin
themselves, and at no point more than are open. -/
structure Balanced (name : Text) (depth : Nat) (cs : List Command) : Prop where
  le : ∀ k, ended name (cs.take k) ≤ depth + begun name (cs.take k)
  eq : ended name cs = depth + begun name cs

theorem not_begins_of_ends (h : Ends name c) : ¬ Begins name c := by
  rintro ⟨begins, -⟩
  rw [h.1] at begins
  exact absurd begins (by decide)

theorem balanced_nil : Balanced name depth [] ↔ depth = 0 := by
  constructor
  · intro h
    simpa [begun, ended, eq_comm] using h.eq
  · rintro rfl
    exact ⟨fun k => by simp [begun, ended], rfl⟩

/-- What each command does to the number of environments that are open. -/
theorem balanced_cons {depth' : Nat}
    (step : depth' + (if Ends name c then 1 else 0) = depth + (if Begins name c then 1 else 0)) :
    Balanced name depth (c :: cs) ↔ Balanced name depth' cs := by
  have begun_cons (l : List Command) : begun name (c :: l) = begun name l + if Begins name c then 1 else 0 := by
    simp [begun, List.countP_cons]
  have ended_cons (l : List Command) : ended name (c :: l) = ended name l + if Ends name c then 1 else 0 := by
    simp [ended, List.countP_cons]
  constructor
  · rintro ⟨le, eq⟩
    refine ⟨fun k => ?_, ?_⟩
    · have := le (k + 1)
      rw [List.take_succ_cons, begun_cons, ended_cons] at this
      omega
    · rw [begun_cons, ended_cons] at eq
      omega
  · rintro ⟨le, eq⟩
    refine ⟨fun k => ?_, ?_⟩
    · cases k with
      | zero => simp [begun, ended]
      | succ k =>
        have := le k
        rw [List.take_succ_cons, begun_cons, ended_cons]
        omega
    · rw [begun_cons, ended_cons]
      omega

theorem balanced_cons_other (begins : ¬ Begins name c) (ends : ¬ Ends name c) :
    Balanced name depth (c :: cs) ↔ Balanced name depth cs :=
  balanced_cons (by simp [begins, ends])

theorem balanced_cons_begin (begins : Begins name c) :
    Balanced name depth (c :: cs) ↔ Balanced name (depth + 1) cs := by
  have ends : ¬ Ends name c := fun ends => not_begins_of_ends ends begins
  exact balanced_cons (by simp [begins, ends])

theorem balanced_cons_end (ends : Ends name c) :
    Balanced name (depth + 1) (c :: cs) ↔ Balanced name depth cs :=
  balanced_cons (by simp [not_begins_of_ends ends, ends])

theorem not_balanced_cons_end (ends : Ends name c) : ¬ Balanced name 0 (c :: cs) := by
  intro h
  have := h.le 1
  simp [begun, ended, ends, not_begins_of_ends ends] at this

/-- An environment ends with the command before which its name is balanced. -/
theorem ending?_eq_some_iff (words : ∀ c ∈ cs, c.name = "begin" ∨ c.name = "end") :
    ending? name depth cs = some (f, rest) ↔
      ∃ inner, cs = inner ++ f :: rest ∧ Ends name f ∧ Balanced name depth inner := by
  induction cs generalizing depth with
  | nil => simp [ending?]
  | cons c cs ih =>
    simp only [List.forall_mem_cons] at words
    have ih {depth : Nat} := @ih depth words.2
    -- The command sought is the first one, with nothing before it, or comes later.
    have split (p : List Command → Prop) : (∃ inner, c :: cs = inner ++ f :: rest ∧ Ends name f ∧ p inner) ↔
        (c = f ∧ cs = rest) ∧ Ends name c ∧ p [] ∨
          ∃ inner, cs = inner ++ f :: rest ∧ Ends name f ∧ p (c :: inner) := by
      constructor
      · rintro ⟨inner, eq, ends, h⟩
        cases inner with
        | nil =>
          obtain ⟨rfl, rfl⟩ := List.cons.inj eq
          exact .inl ⟨⟨rfl, rfl⟩, ends, h⟩
        | cons d inner =>
          obtain ⟨rfl, later⟩ := List.cons.inj eq
          exact .inr ⟨inner, later, ends, h⟩
      · rintro (⟨⟨rfl, rfl⟩, ends, h⟩ | ⟨inner, rfl, ends, h⟩)
        · exact ⟨[], rfl, ends, h⟩
        · exact ⟨c :: inner, rfl, ends, h⟩
    rw [split, ending?.eq_def]
    dsimp only
    by_cases trim : c.argument.trim = name
    · rcases words.1 with begin_ | end_
      · have begins : Begins name c := ⟨begin_, trim⟩
        have ends : ¬ Ends name c := fun ends => not_begins_of_ends ends begins
        rw [if_neg (by simpa using trim), if_pos begin_, ih]
        simp only [balanced_cons_begin begins, ends, false_and, and_false, false_or]
      · have ends : Ends name c := ⟨end_, trim⟩
        rw [if_neg (by simpa using trim), if_neg (by simp [end_])]
        cases depth with
        | zero => simp [ends, balanced_nil, not_balanced_cons_end ends]
        | succ depth => simp only [ih, balanced_nil, balanced_cons_end ends, Nat.succ_ne_zero, and_false, false_or]
    · have begins : ¬ Begins name c := fun h => trim h.2
      have ends : ¬ Ends name c := fun h => trim h.2
      rw [if_pos (by simpa using trim), ih]
      simp only [balanced_cons_other begins ends, ends, false_and, and_false, false_or]

/-- The commands of a list that lie in a span. -/
def within (s : Span) (ds : List Command) : List Command := ds.filter (s.Covers ·.span)

/-- The command `f` ends what `b` begins: between them its name is balanced. -/
structure Closes (ds : List Command) (b f : Command) : Prop where
  ends : Ends b.argument.trim f
  after : b.span.stop ≤ f.span.start
  balanced : Balanced b.argument.trim 0 (within ⟨b.span.stop, f.span.start⟩ ds)

/-- An environment of a listed name, from where that begins to where it is closed. -/
def Pairs (names : List Text) (ds : List Command) (e : Environment) : Prop :=
  e.name ∈ names ∧ ∃ b ∈ ds, ∃ f ∈ ds, Begins e.name b ∧ Closes ds b f ∧
    e.span = ⟨b.span.start, f.span.stop⟩ ∧ e.body = ⟨b.span.stop, f.span.start⟩

/-- Commands that come one after the other. -/
structure Ordered (ds : List Command) : Prop where
  words : ∀ c ∈ ds, c.name = "begin" ∨ c.name = "end"
  start_lt : ∀ c ∈ ds, c.span.start < c.span.stop
  pairwise : ds.Pairwise fun c d => c.span.stop ≤ d.span.start

theorem Ordered.next {before after : List Command} (h : Ordered (before ++ b :: after)) (hc : c ∈ after) :
    b.span.stop ≤ c.span.start :=
  List.rel_of_pairwise_cons (List.pairwise_append.1 h.pairwise).2.1 hc

theorem Ordered.prior {before after : List Command} (h : Ordered (before ++ b :: after)) (hc : c ∈ before) :
    c.span.stop ≤ b.span.start :=
  (List.pairwise_append.1 h.pairwise).2.2 c hc b List.mem_cons_self

/-- Between two commands of a list are those that stand between them in it. -/
theorem Ordered.within_eq {before inner after : List Command}
    (h : Ordered (before ++ b :: (inner ++ f :: after))) :
    within ⟨b.span.stop, f.span.start⟩ (before ++ b :: (inner ++ f :: after)) = inner := by
  have h' : Ordered ((before ++ b :: inner) ++ f :: after) := by simpa using h
  have none (l : List Command) (out : ∀ c ∈ l, c.span.start < b.span.stop ∨ f.span.start < c.span.stop) :
      l.filter (fun c => decide ((⟨b.span.stop, f.span.start⟩ : Span).Covers c.span)) = [] := by
    refine List.filter_eq_nil_iff.2 fun c hc => ?_
    rw [decide_eq_true_eq]
    rintro ⟨start, stop⟩
    dsimp only at start stop
    have := out c hc
    omega
  have earlier := none (before ++ [b]) fun c hc => by
    have := h.start_lt b (by simp)
    have := h.start_lt c (by simp at hc ⊢; grind)
    rcases List.mem_append.1 hc with hc | hc
    · have := h.prior hc
      omega
    · obtain rfl := List.mem_singleton.1 hc
      omega
  have afterwards := none (f :: after) fun c hc => by
    have := h.start_lt f (by simp)
    have := h.start_lt c (by simp at hc ⊢; grind)
    rcases List.mem_cons.1 hc with rfl | hc
    · omega
    · have := h'.next hc
      omega
  have all : inner.filter (fun c => decide ((⟨b.span.stop, f.span.start⟩ : Span).Covers c.span)) = inner := by
    refine List.filter_eq_self.2 fun c hc => ?_
    rw [decide_eq_true_eq]
    exact ⟨h.next (by simp [hc]), h'.prior (by simp [hc])⟩
  rw [within, List.append_cons, List.filter_append (before ++ [b]), List.filter_append inner, earlier, all, afterwards,
    List.nil_append, List.append_nil]

/-- What begins is closed just if an end is found among the commands after it. -/
theorem Ordered.exists_closes_iff {before : List Command} (h : Ordered (before ++ b :: cs)) :
    (∃ f ∈ before ++ b :: cs, Closes (before ++ b :: cs) b f) ↔
      ending? b.argument.trim 0 cs ≠ none := by
  have words : ∀ c ∈ cs, c.name = "begin" ∨ c.name = "end" := fun c hc => h.words c (by simp [hc])
  rw [← Option.isSome_iff_ne_none, Option.isSome_iff_exists]
  constructor
  · rintro ⟨f, hf, closes⟩
    have later : f ∈ cs := by
      have := closes.after
      have := h.start_lt b (by simp)
      have := h.start_lt f hf
      rcases List.mem_append.1 hf with hf | hf
      · have := h.prior hf
        omega
      · rcases List.mem_cons.1 hf with rfl | hf
        · omega
        · exact hf
    obtain ⟨inner, rest, rfl⟩ := List.append_of_mem later
    refine ⟨(f, rest), (ending?_eq_some_iff words).2 ⟨inner, rfl, closes.ends, ?_⟩⟩
    rw [← h.within_eq]
    exact closes.balanced
  · rintro ⟨⟨f, rest⟩, found⟩
    obtain ⟨inner, rfl, ends, balanced⟩ := (ending?_eq_some_iff words).1 found
    exact ⟨f, by simp, ends, h.next (by simp), by rwa [h.within_eq]⟩

variable {stopped : Option Malformed}

/-- Every environment found is one from a beginning to its end. -/
theorem Ordered.pairs_of_mem_pair (h : Ordered ds) (suffix : cs <:+ ds)
    (he : e ∈ (pair names stopped cs).found) : Pairs names ds e := by
  fun_induction pair names stopped cs with
  | case1 => simp at he
  | case2 c cs hc name f rest hf ih =>
    obtain ⟨before, rfl⟩ := suffix
    have words : ∀ c ∈ cs, c.name = "begin" ∨ c.name = "end" := fun c hc => h.words c (by simp [hc])
    obtain ⟨inner, rfl, ends, balanced⟩ := (ending?_eq_some_iff words).1 hf
    rcases List.mem_cons.1 he with rfl | he
    · exact ⟨hc.2, c, by simp, f, by simp, ⟨hc.1, rfl⟩, ⟨ends, h.next (by simp), by rwa [h.within_eq]⟩, rfl, rfl⟩
    · exact ih ⟨before ++ c :: (inner ++ [f]), by simp⟩ he
  | case3 => simp [Scan.stop] at he
  | case4 c cs hc ih => exact ih ((List.suffix_cons c cs).trans suffix) he

/-- When no search ends early, each beginning of a listed name is that of an environment found, or in one. -/
theorem Ordered.exists_pair_of_begins (h : Ordered ds) (suffix : cs <:+ ds)
    (whole : (pair names stopped cs).stopped = none) (hb : b ∈ cs) (begins : Begins name b) (listed : name ∈ names) :
    ∃ e ∈ (pair names stopped cs).found, e.span.start = b.span.start ∨ e.body.Covers b.span := by
  fun_induction pair names stopped cs with
  | case1 => cases hb
  | case2 c cs hc _ f rest hf ih =>
    obtain ⟨before, rfl⟩ := suffix
    have words : ∀ c ∈ cs, c.name = "begin" ∨ c.name = "end" := fun c hc => h.words c (by simp [hc])
    obtain ⟨inner, rfl, ends, -⟩ := (ending?_eq_some_iff words).1 hf
    have h' : Ordered ((before ++ c :: inner) ++ f :: rest) := by simpa using h
    simp only [List.mem_cons, List.mem_append] at hb
    rcases hb with rfl | hb | rfl | hb
    · exact ⟨_, List.mem_cons_self, .inl rfl⟩
    · exact ⟨_, List.mem_cons_self, .inr ⟨h.next (by simp [hb]), h'.prior (by simp [hb])⟩⟩
    · exact absurd ⟨begins.1, ends.2⟩ (not_begins_of_ends ends)
    · obtain ⟨e, he, inside⟩ := ih ⟨before ++ c :: (inner ++ [f]), by simp⟩ whole hb
      exact ⟨e, List.mem_cons_of_mem _ he, inside⟩
  | case3 => simp [Scan.stop] at whole
  | case4 c cs hc ih =>
    rcases List.mem_cons.1 hb with rfl | hb
    · exact absurd ⟨begins.1, begins.2 ▸ listed⟩ hc
    · exact ih ((List.suffix_cons c cs).trans suffix) whole hb

/-- A search of whole commands ends early at a beginning after all that is found, which has no end. -/
theorem Ordered.exists_of_stopped (h : Ordered ds) (suffix : cs <:+ ds) (whole : stopped = none)
    (early : (pair names stopped cs).stopped ≠ none) :
    ∃ (before : List Command) (b : Command) (after : List Command), ds = before ++ b :: after ∧
      b.name = "begin" ∧ b.argument.trim ∈ names ∧ ending? b.argument.trim 0 after = none ∧
        (b ∈ cs ∧ ∀ e ∈ (pair names stopped cs).found, e.span.stop ≤ b.span.start) := by
  fun_induction pair names stopped cs with
  | case1 => exact absurd whole early
  | case2 c cs hc _ f rest hf ih =>
    obtain ⟨skipped, rfl⟩ := isSuffix_ending? hf
    have later : f :: rest <:+ ds := ((List.suffix_append skipped _).trans (List.suffix_cons c _)).trans suffix
    obtain ⟨before, b, after, eq, begins, listed, none, mem, past⟩ :=
      ih ((List.suffix_cons f rest).trans later) early
    refine ⟨before, b, after, eq, begins, listed, none, by simp [mem], fun e he => ?_⟩
    rcases List.mem_cons.1 he with rfl | he
    · obtain ⟨first, rfl⟩ := later
      exact h.next mem
    · exact past e he
  | case3 c cs hc _ hf =>
    obtain ⟨before, rfl⟩ := suffix
    exact ⟨before, c, cs, rfl, hc.1, hc.2, hf, by simp, by simp [Scan.stop]⟩
  | case4 c cs hc ih =>
    obtain ⟨before, b, after, eq, begins, listed, none, mem, past⟩ :=
      ih ((List.suffix_cons c cs).trans suffix) early
    exact ⟨before, b, after, eq, begins, listed, none, by simp [mem], past⟩

theorem ordered_delimiters (t : Text) : Ordered (delimiters t) where
  words c hc := by
    obtain ⟨i, w, r, stands, -⟩ := Command.exists_standsAt hc
    have mem := stands.mem
    rw [← (Command.span_of_afterName? stands.read).1] at mem
    simpa using mem
  start_lt c hc := by
    have := Command.start_lt_stop hc
    omega
  pairwise := Command.pairwise_found

/-- The environments found come one after the other, each from a beginning of a listed name to its end. When
the search goes to the end of the text, each beginning of a listed name is that of one of them, or in one; and
where no `\begin` and no `\end` is malformed, it does unless one that lies in none of them is never closed. -/
theorem all_outermost (t : Text) (names : List Text) :
    ((all t names).found.Pairwise fun e e' => e.span.stop ≤ e'.span.start) ∧
      (∀ e ∈ (all t names).found, Pairs names (delimiters t) e) ∧
      ((all t names).stopped = none → ∀ b ∈ delimiters t, ∀ name ∈ names, Begins name b →
        ∃ e ∈ (all t names).found, e.span.start = b.span.start ∨ e.body.Covers b.span) ∧
      ((Command.all t ["begin", "end"]).stopped = none →
        ((all t names).stopped ≠ none ↔ ∃ b ∈ delimiters t, ∃ name ∈ names, Begins name b ∧
          (∀ e ∈ (all t names).found, e.span.stop ≤ b.span.start ∨ b.span.stop ≤ e.span.start) ∧
            ¬ ∃ f ∈ delimiters t, Closes (delimiters t) b f)) := by
  have ordered := ordered_delimiters t
  have lies (whole : (all t names).stopped = none) (b : Command) (hb : b ∈ delimiters t) (name : Text)
      (mem : name ∈ names) (begins : Begins name b) :
      ∃ e ∈ (all t names).found, e.span.start = b.span.start ∨ e.body.Covers b.span :=
    ordered.exists_pair_of_begins (List.suffix_refl _) whole hb begins mem
  refine ⟨pairwise_all t names, fun e he => ordered.pairs_of_mem_pair (List.suffix_refl _) he, lies, fun whole => ?_⟩
  constructor
  · intro early
    have search : all t names = pair names none (delimiters t) := by rw [← whole]; rfl
    rw [search] at early ⊢
    obtain ⟨before, b, after, eq, begins, listed, none, -, past⟩ :=
      ordered.exists_of_stopped (List.suffix_refl _) rfl early
    refine ⟨b, by simp [eq], _, listed, ⟨begins, rfl⟩, fun e he => .inl (past e he), ?_⟩
    rw [eq] at ordered ⊢
    rw [ordered.exists_closes_iff]
    simp [none]
  · rintro ⟨b, hb, name, mem, begins, outside, -⟩ whole
    obtain ⟨e, he, inside⟩ := lies whole b hb name mem begins
    have body := liesIn_of_mem_all he
    have := body.start_lt
    have := body.lt_stop
    have := start_lt_stop he
    have := ordered.start_lt b hb
    rcases outside e he with apart | apart <;> rcases inside with start | ⟨start, stop⟩ <;> omega

end FloatFlattening.Environment
