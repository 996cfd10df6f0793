import FloatFlattening.Proofs.Flattening.Dangling
import FloatFlattening.Proofs.Flattening.Exchange
import FloatFlattening.Proofs.Markup.Pair
/-!
Texts with references exchanged, as corresponding pieces. A reference without bracket groups says
nothing to a search for other commands, and neither does what a flattening puts in its place.
-/

namespace FloatFlattening

open Text

/-- A character that no group and no command begins or ends with. -/
def Text.isDull (c : Char) : Bool := isInner c && c ≠ '[' && c ≠ ']'

namespace Text

variable {c : Char}

theorem isDull_iff : isDull c ↔ isInner c ∧ c ≠ '[' ∧ c ≠ ']' := by
  simp [isDull, and_assoc]

theorem inner_of_isDull (h : isDull c) : isInner c := (isDull_iff.1 h).1

/-- A character of a kind that no delimiter is of. -/
theorem isDull_of_kind {p : Char → Bool} (h : p c)
    (others : ∀ x ∈ ['\\', '{', '}', '[', ']'], p x = false) : isDull c := by
  simp only [List.forall_mem_cons] at others
  obtain ⟨escape, opening, closing, bracket, bracket', -⟩ := others
  refine isDull_iff.2 ⟨isInner_of_kind h escape opening closing, ?_, ?_⟩ <;> rintro rfl <;> simp_all

theorem isDull_of_isAlpha (h : c.isAlpha) : isDull c := isDull_of_kind h (by decide)

theorem isDull_of_isBlank (h : isBlank c) : isDull c := isDull_of_kind h (by decide)

theorem isDull_of_isAsciiBlank (h : isAsciiBlank c) : isDull c := isDull_of_kind h (by decide)

theorem isAlpha_of_isAsciiBlank (h : isAsciiBlank c) : c.isAlpha = false := by
  simp only [isAsciiBlank, Bool.or_eq_true, decide_eq_true_eq] at h
  rcases h with (((rfl | rfl) | rfl) | rfl) | rfl <;> rfl

end Text

theorem bracketLength?_chars {u : Text} (hu : ∀ c ∈ u, isDull c) (depth : Nat) (t : Text) :
    bracketLength? depth (u ++ t) = (bracketLength? depth t).map (· + u.length) := by
  induction u with
  | nil => simp
  | cons c u ih =>
    obtain ⟨dull, rest⟩ := List.forall_mem_cons.1 hu
    obtain ⟨inner, bracket, bracket'⟩ := isDull_iff.1 dull
    obtain ⟨slash, opening, -⟩ := isInner_iff.1 inner
    rw [List.cons_append, bracketLength?_other slash opening bracket bracket', ih rest, Option.map_map]
    rfl

/-! A command with one argument in braces, and some characters after that. -/

section

variable {d : Char} {u a z : Text}

theorem Text.escapes_call (hu : ∀ c ∈ u, isInner c) (ha : ∀ c ∈ a, isInner c) (hz : ∀ c ∈ z, isInner c) :
    escapes ('\\' :: d :: (u ++ '{' :: (a ++ '}' :: z))) = false := by
  rw [escapes_pair]
  exact escapes_of_forall (List.forall_mem_append.2 ⟨fun c hc => ne_slash_of_isInner (hu c hc),
    ne_slash_of_group ha fun c hc => ne_slash_of_isInner (hz c hc)⟩)

theorem braceLength?_call (hu : ∀ c ∈ u, isInner c) (ha : ∀ c ∈ a, isInner c) (hz : ∀ c ∈ z, isInner c)
    (depth : Nat) (t : Text) :
    braceLength? depth ('\\' :: d :: (u ++ '{' :: (a ++ '}' :: z)) ++ t) =
      (braceLength? depth t).map (· + ('\\' :: d :: (u ++ '{' :: (a ++ '}' :: z))).length) := by
  simp only [List.cons_append, List.append_assoc]
  rw [braceLength?, braceLength?_chars hu, braceLength?, braceLength?_chars ha, braceLength?, braceLength?_chars hz]
  cases braceLength? depth t with
  | none => rfl
  | some n =>
    simp
    omega

theorem bracketLength?_call (hu : ∀ c ∈ u, isDull c) (ha : ∀ c ∈ a, isInner c) (hz : ∀ c ∈ z, isDull c)
    (depth : Nat) (t : Text) :
    bracketLength? depth ('\\' :: d :: (u ++ '{' :: (a ++ '}' :: z)) ++ t) =
      (bracketLength? depth t).map (· + ('\\' :: d :: (u ++ '{' :: (a ++ '}' :: z))).length) := by
  simp only [List.cons_append, List.append_assoc]
  rw [bracketLength?, bracketLength?_chars hu, bracketLength?_braces (braceLength?_inner ha _),
    bracketLength?_chars hz]
  cases bracketLength? depth t with
  | none => rfl
  | some n =>
    simp
    omega

end

namespace Reference

/-- How a reference is written, up to the brace that closes it, with some characters after that. -/
theorem passed {w k a z : Text} (hw : w ∈ commandNames) (hk : ∀ c ∈ k, c = '*' ∨ isAsciiBlank c)
    (ha : ∀ c ∈ a, isInner c) (hz : ∀ c ∈ z, isDull c) :
    Piece.Passed ('\\' :: (w ++ (k ++ '{' :: (a ++ '}' :: z)))) := by
  obtain ⟨ne, letters⟩ := Mark.letters w (List.mem_cons_of_mem _ hw)
  have apart : ∀ c ∈ k, isDull c ∧ c.isAlpha = false := by
    intro c hc
    rcases hk c hc with rfl | blank
    · decide
    · exact ⟨isDull_of_isAsciiBlank blank, isAlpha_of_isAsciiBlank blank⟩
  have word : Command.Word w (k ++ '{' :: (a ++ '}' :: z)) :=
    Command.Word.append_of_head ⟨ne, letters, fun c hc => (apart c (List.mem_of_mem_head? hc)).2⟩ (by simp)
  obtain ⟨d, v, hd⟩ := List.exists_cons_of_ne_nil ne
  have dull : ∀ c ∈ v ++ k, isDull c := List.forall_mem_append.2
    ⟨fun c hc => isDull_of_isAlpha (letters c (hd ▸ List.mem_cons_of_mem d hc)), fun c hc => (apart c hc).1⟩
  have inner {u : Text} (hu : ∀ c ∈ u, isDull c) : ∀ c ∈ u, isInner c := fun c hc => inner_of_isDull (hu c hc)
  have parts : '\\' :: (w ++ (k ++ '{' :: (a ++ '}' :: z))) = '\\' :: d :: (v ++ k ++ '{' :: (a ++ '}' :: z)) := by
    simp [hd]
  refine ⟨rfl, parts ▸ escapes_call (inner dull) ha (inner hz), parts ▸ braceLength?_call (inner dull) ha (inner hz),
    parts ▸ bracketLength?_call dull ha hz, fun names other pos t => ?_⟩
  rw [List.cons_append, List.append_assoc, Command.scan_mention (word.append (by simp) t)
    fun mem => (other _ hw mem).elim, Command.scan_chars]
  · congr 1
    simp
    omega
  · exact List.forall_mem_append.2 ⟨fun c hc => ne_slash_of_isInner (inner_of_isDull (apart c hc).1),
      ne_slash_of_group ha fun c hc => ne_slash_of_isInner (inner hz c hc)⟩

end Reference

theorem Arguments.eq_of_brackets_nil {construct : Text} {c c' : Cursor}
    (h : brackets construct c = .ok ([], c')) : c' = c := by
  cases c using brackets_induction with
  | unclosed c t hc ht => simp [brackets_unclosed hc ht] at h
  | group c t n hc ht =>
    rw [brackets_group hc ht] at h
    obtain ⟨r, -, eq⟩ := Except.map_eq_ok_iff.1 h
    cases eq
  | done c hc =>
    rw [brackets_of_head?_ne hc] at h
    exact (Prod.mk.inj (Except.ok.inj h)).2.symm

namespace Command

variable {names : List Text} {t : Text} {s : Span} {c : Command}

theorem free_of_mem_inSpan (h : c ∈ (inSpan t s names).found) (free : escapes (t.take s.start) = false) :
    escapes (t.take c.span.start) = false := by
  obtain ⟨i, w, r, hi, free'⟩ := exists_standsAt h
  rw [hi.start, ← escapes_drop_take free, ← free', Text.slice, List.drop_take, List.take_take]
  congr 2
  have := congrArg List.length hi.text
  simp only [List.length_drop, length_slice, List.length_cons] at this
  omega

/-- A command without bracket groups, as it is written. -/
theorem exists_slice_eq (h : c ∈ (inSpan t s names).found) (none : c.optional = []) :
    ∃ w ∈ names, ∃ k, (∀ x ∈ k, x = '*' ∨ isAsciiBlank x) ∧
      t.slice c.span = '\\' :: (w ++ (k ++ '{' :: (c.argument ++ ['}']))) := by
  obtain ⟨w, r, hi⟩ := stands_of_mem_inSpan h
  obtain ⟨groups, c', u, n, opens, eq⟩ := afterName?_eq_some_iff.1 hi.read
  obtain ⟨k, -, drop, chars, pos⟩ := exists_afterStar r
  obtain ⟨⟨c₁, read, blanks⟩, brace, group⟩ := opens
  obtain rfl : groups = [] := by
    rw [eq] at none
    exact none
  obtain rfl := Arguments.eq_of_brackets_nil read
  rw [Cursor.skipBlanks_skipBlanks] at blanks
  rw [← blanks, rest_skipStar, drop] at brace
  have parts : r = r.take k ++ '{' :: u := by rw [← brace, List.take_append_drop]
  have close : u.take (n + 1) = u.take n ++ ['}'] := by
    rw [List.take_add_one, getElem?_braceLength? group]
    rfl
  have stop : c.span.stop = c.span.start + ((r.take k).length + (n + 2) + w.length + 1) := by
    rw [eq]
    simp only [ofGroup, ← blanks, pos]
    have := congrArg List.length brace
    simp at this ⊢
    omega
  refine ⟨w, hi.mem, r.take k, chars, ?_⟩
  have argument : c.argument = u.take n := by rw [eq, ofGroup]
  have rest : r.take ((r.take k).length + (n + 2)) = r.take k ++ '{' :: (u.take n ++ ['}']) := by
    generalize r.take k = blanks at parts
    rw [parts, List.take_length_add_append, List.take_succ_cons, close]
  rw [show c.span = ⟨c.span.start, c.span.stop⟩ from rfl, stop, slice_eq_take, hi.text, List.take_succ_cons,
    Nat.add_comm _ w.length, List.take_length_add_append, argument, rest]

theorem passed_of_mem_inSpan (h : c ∈ (inSpan t s Reference.commandNames).found) (none : c.optional = [])
    (inner : ∀ x ∈ c.argument, isInner x) : Piece.Passed (t.slice c.span) := by
  obtain ⟨w, hw, k, hk, eq⟩ := exists_slice_eq h none
  rw [eq]
  exact Reference.passed (z := []) hw hk inner (by simp)

end Command

theorem Reference.passed_lettered {name : Text} {letter? : Option Char} (hn : ∀ c ∈ name, isInner c)
    (hl : ∀ x ∈ letter?, x.isAlpha) : Piece.Passed (lettered name letter?) := by
  cases letter? with
  | none => simpa [lettered, Reference.markup] using
      passed (w := "ref") (k := []) (z := []) (by decide) (by simp) hn (by simp)
  | some x =>
    have dull := isDull_of_isAlpha (hl x rfl)
    simpa [lettered, Reference.markup] using
      passed (w := "ref") (k := []) (z := ['(', x, ')']) (by decide) (by simp) hn (by simp [dull]; decide)

namespace Flattened

open Piece

variable {t : Text} {n : Numbering} {flattened : List Text} {stop last : Nat} {cs : List Command}
  {v : Command → Text} {s : Span}

/-- A text with some of its references exchanged. -/
theorem exists_pieces_splice (hstop : stop ≤ t.length) (sorted : cs.Pairwise fun c d => c.span.stop ≤ d.span.start)
    (inside : ∀ c ∈ cs, last ≤ c.span.start ∧ c.span.start ≤ c.span.stop ∧ c.span.stop ≤ stop)
    (le : last ≤ stop) (free : escapes (t.take last) = false)
    (unescaped : ∀ c ∈ cs, escapes (t.take c.span.start) = false)
    (passed : ∀ c ∈ cs, Passed (t.slice c.span) ∧ Passed (v c)) :
    ∃ ps, Exchanged ps ∧ olds ps = t.slice ⟨last, stop⟩ ∧
      news ps = t.splice stop last (cs.map fun c => (c.span, v c)) := by
  induction cs generalizing last with
  | nil => exact Exchanged.exists_same _
  | cons c cs ih =>
    simp only [List.forall_mem_cons] at inside unescaped passed
    obtain ⟨⟨start, lt, stop'⟩, inside⟩ := inside
    obtain ⟨unescaped, unescaped'⟩ := unescaped
    obtain ⟨⟨old, new⟩, passed⟩ := passed
    have free' : escapes (t.slice ⟨last, c.span.start⟩) = false := by
      obtain ⟨n, hn⟩ := Nat.exists_eq_add_of_le start
      rw [hn, slice_eq_take, escapes_drop_take free, ← hn, unescaped]
    have past : escapes (t.take c.span.stop) = false := by
      obtain ⟨n, hn⟩ := Nat.exists_eq_add_of_le lt
      rw [hn, ← escapes_drop_take unescaped, ← slice_eq_take, ← hn, old.free]
    obtain ⟨ps, before, bo, bn⟩ := Exchanged.exists_same (t.slice ⟨last, c.span.start⟩)
    obtain ⟨qs, after, ao, an⟩ := ih sorted.of_cons
      (fun d hd => ⟨List.rel_of_pairwise_cons sorted hd, (inside d hd).2⟩) stop' past unescaped' passed
    refine ⟨ps ++ ⟨t.slice c.span, v c⟩ :: qs, before.append (bo ▸ free') (.markup old new after), ?_, ?_⟩
    · rw [olds_append, olds_cons, bo, ao, show t.slice c.span = t.slice ⟨c.span.start, c.span.stop⟩ from rfl,
        slice_append t lt stop' hstop, slice_append t start (lt.trans stop') hstop]
    · rw [news_append, news_cons, bn, an, List.map_cons, splice, List.append_assoc]

theorem passed_visit (hn : n.Sound) (names : ∀ name ∈ flattened, ∀ c ∈ name, isInner c) (r : Reference)
    {source : Text} (h : Passed source) : Passed ((Stretch.visit n flattened r).markup source) :=
  Stretch.of_visit Passed hn names (fun _ _ => Reference.passed_lettered) r h

/-- What is asked of the references of a part of a text: they have no bracket groups and plain targets. -/
def Bare (t : Text) (s : Span) : Prop :=
  ∀ c ∈ (Command.inSpan t s Reference.commandNames).found, c.optional = [] ∧ ∀ x ∈ c.argument, isInner x

theorem exists_pieces_exchange (hn : n.Sound) (names : ∀ name ∈ flattened, ∀ c ∈ name, isInner c)
    (le : s.start ≤ s.stop) (hstop : s.stop ≤ t.length) (free : escapes (t.take s.start) = false)
    (bare : Bare t s) (ref : Command → Reference) (span : ∀ c, (ref c).span = c.span) :
    ∃ ps, Exchanged ps ∧ olds ps = t.slice s ∧ news ps = exchange t s (Stretch.visit n flattened)
      ((Command.inSpan t s Reference.commandNames).found.map ref) := by
  simp only [exchange, List.map_map, Function.comp_def, span]
  refine exists_pieces_splice hstop Command.pairwise_found (fun c hc => ?_) le free
    (fun c hc => Command.free_of_mem_inSpan hc free) fun c hc => ?_
  · have := Command.bounds_of_mem_inSpan hc
    have := Command.start_lt_stop hc
    omega
  · have here := Command.passed_of_mem_inSpan hc (bare c hc).1 (bare c hc).2
    exact ⟨here, passed_visit hn names (ref c) here⟩

end Flattened

end FloatFlattening
