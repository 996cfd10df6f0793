import FloatFlattening.Proofs.Markup.Environment
import FloatFlattening.Proofs.Markup.Piece
/-!
The environments of commands in two parts, and those of corresponding commands.
-/

namespace FloatFlattening

namespace Text

variable {t : Text} {c : Char}

theorem mem_trim_iff (h : isBlank c = false) : c ∈ trim t ↔ c ∈ t := by
  have keep (t : Text) : c ∈ t.dropWhile isBlank ↔ c ∈ t := by
    refine ⟨fun hc => (List.dropWhile_suffix _).subset hc, fun hc => ?_⟩
    rw [← List.takeWhile_append_dropWhile (p := isBlank) (l := t), List.mem_append] at hc
    refine hc.resolve_left fun blank => ?_
    simp [List.mem_takeWhile_imp blank] at h
  rw [trim, trimEnd, trimStart, List.mem_reverse, keep, List.mem_reverse, keep]

end Text

namespace Piece.Exchanged

variable {ps : List Piece}

theorem mem_iff (h : Exchanged ps) : '\\' ∈ olds ps ↔ '\\' ∈ news ps := by
  induction h with
  | nil => simp
  | lone | pair => simp
  | char _ _ ih => simpa using or_congr_right ih
  | markup hx hy => simp [List.mem_of_mem_head? hx.head, List.mem_of_mem_head? hy.head]

theorem olds_eq_news (h : Exchanged ps) (none : '\\' ∉ olds ps) : olds ps = news ps := by
  induction h with
  | nil => rfl
  | lone | pair => simp at none
  | char _ _ ih => simp_all
  | markup hx hy => simp [List.mem_of_mem_head? hx.head] at none

/-- Corresponding texts say the same where a word without commands is asked for. -/
theorem trim_eq_iff (h : Exchanged ps) {x : Text} (hx : '\\' ∉ x) :
    (olds ps).trim = x ↔ (news ps).trim = x := by
  by_cases slash : '\\' ∈ olds ps
  · have old : '\\' ∈ (olds ps).trim := (Text.mem_trim_iff rfl).2 slash
    have new : '\\' ∈ (news ps).trim := (Text.mem_trim_iff rfl).2 (h.mem_iff.1 slash)
    exact ⟨fun e => (hx (e ▸ old)).elim, fun e => (hx (e ▸ new)).elim⟩
  · rw [h.olds_eq_news slash]

end Piece.Exchanged

theorem Command.Matches.trim_eq_iff {places : Nat → Nat → Prop} {c c' : Command} (h : c.Matches places c')
    {x : Text} (hx : '\\' ∉ x) : c.argument.trim = x ↔ c'.argument.trim = x := by
  obtain ⟨ps, exchanged, old, new⟩ := h.argument
  rw [old, new, exchanged.trim_eq_iff hx]

namespace Environment

variable {names : List Text} {stopped stopped' : Option Malformed} {cs cs' l l' rest : List Command}
  {name : Text} {depth bound : Nat} {f : Command} {places : Nat → Nat → Prop}

theorem ending?_other {c : Command} (h : c.argument.trim ≠ name) :
    ending? name depth (c :: cs) = ending? name depth cs := by
  rw [ending?.eq_def]
  dsimp only
  rw [if_pos h]

theorem ending?_begin {c : Command} (h : c.argument.trim = name) (begins : c.name = "begin") :
    ending? name depth (c :: cs) = ending? name (depth + 1) cs := by
  rw [ending?.eq_def]
  dsimp only
  rw [if_neg (not_not.2 h), if_pos begins]

theorem ending?_last {c : Command} (h : c.argument.trim = name) (ends : c.name ≠ "begin") :
    ending? name 0 (c :: cs) = some (c, cs) := by
  rw [ending?.eq_def]
  dsimp only
  rw [if_neg (not_not.2 h), if_neg ends]

theorem ending?_end {c : Command} (h : c.argument.trim = name) (ends : c.name ≠ "begin") :
    ending? name (depth + 1) (c :: cs) = ending? name depth cs := by
  rw [ending?.eq_def]
  dsimp only
  rw [if_neg (not_not.2 h), if_neg ends]

theorem ending?_append (h : ending? name depth l = some (f, rest)) (l' : List Command) :
    ending? name depth (l ++ l') = some (f, rest ++ l') := by
  fun_induction ending? name depth l with
  | case1 => cases h
  | case2 depth c cs hc ih => rw [List.cons_append, ending?_other hc, ih h]
  | case3 depth c cs hc hb ih => rw [List.cons_append, ending?_begin (not_not.1 hc) hb, ih h]
  | case4 c cs hc hb =>
    obtain ⟨rfl, rfl⟩ := by simpa using h
    rw [List.cons_append, ending?_last (not_not.1 hc) hb]
  | case5 c cs hc hb depth ih => rw [List.cons_append, ending?_end (not_not.1 hc) hb, ih h]

theorem ending?_of_append (h : ending? name depth (l ++ l') = some (f, rest)) :
    (∃ rest', ending? name depth l = some (f, rest') ∧ rest = rest' ++ l') ∨ f ∈ l' := by
  cases hl : ending? name depth l with
  | some r =>
    obtain ⟨g, rest'⟩ := r
    rw [ending?_append hl] at h
    obtain ⟨rfl, rfl⟩ := by simpa using h
    exact .inl ⟨rest', rfl, rfl⟩
  | none =>
    refine .inr ?_
    fun_induction ending? name depth l with
    | case1 depth => exact (isSuffix_ending? h).mem List.mem_cons_self
    | case2 depth c cs hc ih =>
      rw [List.cons_append, ending?_other hc] at h
      exact ih h hl
    | case3 depth c cs hc hb ih =>
      rw [List.cons_append, ending?_begin (not_not.1 hc) hb] at h
      exact ih h hl
    | case4 => cases hl
    | case5 c cs hc hb depth ih =>
      rw [List.cons_append, ending?_end (not_not.1 hc) hb] at h
      exact ih h hl

theorem pair_nil : pair names stopped [] = ⟨[], stopped⟩ := by rw [pair]

theorem pair_other {c : Command} (h : ¬ (c.name = "begin" ∧ c.argument.trim ∈ names)) :
    pair names stopped (c :: cs) = pair names stopped cs := by
  rw [pair, if_neg h]

theorem pair_open {c : Command} (stopped : Option Malformed)
    (h : c.name = "begin" ∧ c.argument.trim ∈ names)
    (none : ending? c.argument.trim 0 cs = none) :
    ∃ m, pair names stopped (c :: cs) = .stop m := by
  rw [pair, if_pos h]
  dsimp only
  split
  next some => simp [none] at some
  next => exact ⟨_, rfl⟩

theorem pair_closed {c : Command} (h : c.name = "begin" ∧ c.argument.trim ∈ names)
    (ends : ending? c.argument.trim 0 cs = some (f, rest)) :
    pair names stopped (c :: cs) = (pair names stopped rest).cons
      ⟨c.argument.trim, ⟨c.span.start, f.span.stop⟩, ⟨c.span.stop, f.span.start⟩⟩ := by
  rw [pair, if_pos h]
  dsimp only
  split
  next some =>
    rw [ends] at some
    obtain ⟨rfl, rfl⟩ := by simpa using some
    rfl
  next none => simp [ends] at none

/-- Environments are all found only where all their commands are. -/
theorem stopped_of_pair (h : (pair names stopped cs).stopped = none) : stopped = none := by
  induction n : cs.length using Nat.strong_induction_on generalizing cs with
  | _ n ih =>
    subst n
    cases cs with
    | nil => rwa [pair_nil] at h
    | cons c cs =>
      by_cases begins : c.name = "begin" ∧ c.argument.trim ∈ names
      · cases ends : ending? c.argument.trim 0 cs with
        | none =>
          obtain ⟨m, eq⟩ := pair_open stopped begins ends
          simp [eq, Scan.stop] at h
        | some r =>
          rw [pair_closed begins ends] at h
          exact ih r.2.length (Nat.lt_succ_of_lt (length_ending? ends)) h rfl
      · rw [pair_other begins] at h
        exact ih cs.length (Nat.lt_succ_self _) h rfl

theorem pair_append (h : (pair names none l).stopped = none) (l' : List Command) :
    pair names stopped (l ++ l') = pair names none l ++ pair names stopped l' := by
  induction n : l.length using Nat.strong_induction_on generalizing l with
  | _ n ih =>
    subst n
    cases l with
    | nil =>
      rw [pair_nil]
      rfl
    | cons c l =>
      by_cases begins : c.name = "begin" ∧ c.argument.trim ∈ names
      · cases ends : ending? c.argument.trim 0 l with
        | none =>
          obtain ⟨m, eq⟩ := pair_open none begins ends
          simp [eq, Scan.stop] at h
        | some r =>
          obtain ⟨f, rest⟩ := r
          rw [pair_closed begins ends] at h ⊢
          have less := length_ending? ends
          rw [List.cons_append, pair_closed begins (ending?_append ends l'), ih rest.length (by simp; omega) h rfl,
            Scan.cons_append]
      · rw [pair_other begins] at h ⊢
        rw [List.cons_append, pair_other begins, ih l.length (by simp) h rfl]

theorem inSpan_eq {t : Text} {s : Span} (h : (Command.inSpan t s ["begin", "end"]).stopped = none)
    (names : List Text) : inSpan t s names = pair names none (Command.inSpan t s ["begin", "end"]).found := by
  rw [inSpan, ofCommands, h]

theorem ofCommands_append {s s' : Scan Command} (hs : s.stopped = none) (h : (ofCommands names s).stopped = none) :
    ofCommands names (s ++ s') = ofCommands names s ++ ofCommands names s' := by
  obtain ⟨found, stopped⟩ := s
  obtain rfl : stopped = none := hs
  exact pair_append h s'.found

/-- Commands up to a bound that no environment goes over make environments of their own. -/
theorem stopped_pair_left (bound : Nat) (h : (pair names none (l ++ l')).stopped = none)
    (before : ∀ c ∈ l, c.span.start < bound) (after : ∀ c ∈ l', bound < c.span.stop)
    (apart : ∀ e ∈ (pair names none (l ++ l')).found, e.span.stop ≤ bound ∨ bound ≤ e.span.start) :
    (pair names none l).stopped = none := by
  induction n : l.length using Nat.strong_induction_on generalizing l with
  | _ n ih =>
    subst n
    cases l with
    | nil => rw [pair_nil]
    | cons c l =>
      by_cases begins : c.name = "begin" ∧ c.argument.trim ∈ names
      · rw [List.cons_append] at h apart
        cases ends : ending? c.argument.trim 0 (l ++ l') with
        | none =>
          obtain ⟨m, eq⟩ := pair_open none begins ends
          simp [eq, Scan.stop] at h
        | some r =>
          obtain ⟨f, rest⟩ := r
          rw [pair_closed begins ends] at h apart
          simp only [Scan.found_cons, List.forall_mem_cons] at apart
          have start := before c List.mem_cons_self
          rcases ending?_of_append ends with ⟨rest, closed, rfl⟩ | mem
          · rw [pair_closed begins closed]
            have less := length_ending? closed
            have sub := (List.suffix_cons f rest).trans (isSuffix_ending? closed)
            exact ih rest.length (by simp; omega) h
              (fun d hd => before d (List.mem_cons_of_mem c (sub.subset hd))) apart.2 rfl
          · have := after f mem
            omega
      · rw [List.cons_append, pair_other begins] at h apart
        rw [pair_other begins]
        exact ih l.length (by simp) h (fun d hd => before d (List.mem_cons_of_mem c hd)) apart rfl

/-- An environment of one text and the corresponding one of another. -/
structure Matches (places : Nat → Nat → Prop) (e e' : Environment) : Prop where
  start : places e.span.start e'.span.start
  stop : places e.span.stop e'.span.stop
  bodyStart : places e.body.start e'.body.start
  bodyStop : places e.body.stop e'.body.stop

theorem Matches.imp {places' : Nat → Nat → Prop} {e e' : Environment} (h : e.Matches places e')
    (k : ∀ i i', places i i' → places' i i') : e.Matches places' e' :=
  ⟨k _ _ h.start, k _ _ h.stop, k _ _ h.bodyStart, k _ _ h.bodyStop⟩

theorem forall₂_ending? (h : List.Forall₂ (Command.Matches places) cs cs') (hn : '\\' ∉ name) (depth : Nat) :
    (ending? name depth cs = none ∧ ending? name depth cs' = none) ∨
      ∃ f f' rest rest', ending? name depth cs = some (f, rest) ∧ ending? name depth cs' = some (f', rest') ∧
        f.Matches places f' ∧ List.Forall₂ (Command.Matches places) rest rest' := by
  induction h generalizing depth with
  | nil => exact .inl ⟨by rw [ending?], by rw [ending?]⟩
  | @cons c c' cs cs' hc h ih =>
    by_cases here : c.argument.trim = name
    · have here' := (hc.trim_eq_iff hn).1 here
      by_cases begins : c.name = "begin"
      · have begins' : c'.name = "begin" := hc.name ▸ begins
        rw [ending?_begin here begins, ending?_begin here' begins']
        exact ih (depth + 1)
      · have begins' : c'.name ≠ "begin" := hc.name ▸ begins
        cases depth with
        | zero => exact .inr ⟨c, c', cs, cs', ending?_last here begins, ending?_last here' begins', hc, h⟩
        | succ depth =>
          rw [ending?_end here begins, ending?_end here' begins']
          exact ih depth
    · have here' : c'.argument.trim ≠ name := fun eq => here ((hc.trim_eq_iff hn).2 eq)
      rw [ending?_other here, ending?_other here']
      exact ih depth

theorem matches_pair (h : List.Forall₂ (Command.Matches places) cs cs') (hn : ∀ name ∈ names, '\\' ∉ name)
    (both : stopped = none ↔ stopped' = none) :
    (pair names stopped cs).Matches (Matches places) (pair names stopped' cs') := by
  induction n : cs.length using Nat.strong_induction_on generalizing cs cs' with
  | _ n ih =>
    subst n
    cases h with
    | nil => exact ⟨by simp [pair_nil], by simpa [pair_nil] using both⟩
    | @cons c c' cs cs' hc h =>
      by_cases begins : c.name = "begin" ∧ c.argument.trim ∈ names
      · have name := (hc.trim_eq_iff (hn _ begins.2)).1 rfl
        have begins' : c'.name = "begin" ∧ c'.argument.trim ∈ names := ⟨hc.name ▸ begins.1, name ▸ begins.2⟩
        rcases forall₂_ending? h (hn _ begins.2) 0 with ⟨ends, ends'⟩ | ⟨f, f', rest, rest', ends, ends', hf, hr⟩
        · rw [← name] at ends'
          obtain ⟨m, eq⟩ := pair_open stopped begins ends
          obtain ⟨m', eq'⟩ := pair_open stopped' begins' ends'
          rw [eq, eq']
          exact .stop m m'
        · rw [← name] at ends'
          have less := length_ending? ends
          rw [pair_closed begins ends, pair_closed begins' ends']
          exact (ih rest.length (by simp; omega) hr rfl).cons ⟨hc.start, hf.stop, hc.stop, hf.start⟩
      · have begins' : ¬ (c'.name = "begin" ∧ c'.argument.trim ∈ names) := by
          rintro ⟨begin', mem⟩
          have name := (hc.trim_eq_iff (hn _ mem)).2 rfl
          exact begins ⟨hc.name.trans begin', name ▸ mem⟩
        rw [pair_other begins, pair_other begins']
        exact ih cs.length (by simp) h rfl

end Environment

end FloatFlattening
