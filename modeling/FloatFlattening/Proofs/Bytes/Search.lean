import FloatFlattening.Proofs.Bytes.Environment
import FloatFlattening.Proofs.Markup.Usage
/-!
No search cuts a character or leaves the text. The walks over the bytes of a text never slip: they come to what
the searches of the text come to, with offsets for positions, and those are offsets at which characters begin.
-/

namespace FloatFlattening

/-- A part of a text that begins and ends between characters. -/
structure IsSlice (b : Bytes) (s : Span) : Prop where
  le : s.start ≤ s.stop
  start : IsBoundary b s.start
  stop : IsBoundary b s.stop

/-- What a search of a part of a text found: one thing after another, each strictly further on than the place where
the search for it began. -/
structure Advances {α : Type} (b : Bytes) (range : Span) (span : α → Span) (s : Scan α) : Prop where
  slices : ∀ a ∈ s.found, IsSlice b (span a) ∧ range.Covers (span a)
  further : (range.start :: s.found.map fun a => (span a).stop).Pairwise (· < ·)
  stopped : ∀ m ∈ s.stopped, IsBoundary b m.pos

namespace Text

variable {t : Text} {p q : Nat} {s : Span}

theorem byteOffset_take (h : p ≤ q) : byteOffset (t.take q) p = byteOffset t p := by
  rw [byteOffset, List.take_take, Nat.min_eq_left h, byteOffset]

theorem take_toBytes (t : Text) (p : Nat) : (toBytes t).take (byteOffset t p) = toBytes (t.take p) := by
  have split : toBytes t = toBytes (t.take p) ++ toBytes (t.drop p) := by rw [← toBytes_append, List.take_append_drop]
  rw [split, byteOffset, ← length_toBytes, List.take_left]

theorem isBoundary_byteOffset (t : Text) (p : Nat) : IsBoundary (toBytes t) (byteOffset t p) := by
  refine isBoundary_iff.2 ⟨min p t.length, Nat.min_le_right _ _, ?_⟩
  rw [byteOffset, byteOffset, ← List.take_take, List.take_length]

theorem isSlice_spanBytes (t : Text) (h : s.start ≤ s.stop) : IsSlice (toBytes t) (spanBytes t s) :=
  ⟨byteOffset_mono t h, isBoundary_byteOffset t s.start, isBoundary_byteOffset t s.stop⟩

theorem covers_spanBytes {r : Span} (t : Text) (h : r.Covers s) : (spanBytes t r).Covers (spanBytes t s) :=
  ⟨byteOffset_mono t h.1, byteOffset_mono t h.2⟩

theorem count_toBytes {d : Char} (hd : d.toNat < 128) (t : Text) : (toBytes t).count d.toUInt8 = t.count d := by
  induction t with
  | nil => rfl
  | cons c t ih =>
    by_cases same : c = d
    · subst same
      rw [toBytes_ascii hd, List.count_cons_self, List.count_cons_self, ih]
    · have none : (String.utf8EncodeChar c).count d.toUInt8 = 0 :=
        List.count_eq_zero.2 fun mem => ne_of_mem_encode hd same mem rfl
      rw [toBytes_cons, List.count_append, none, Nat.zero_add, List.count_cons_of_ne same, ih]

end Text

namespace Command

variable {names : List Text} {pos i : Nat} {t w r : Text} {c : Command} {s : Span}

theorem StandsAt.argument_within (h : StandsAt names pos t c i w r) : c.span.start < c.argumentSpan.start ∧
    c.argumentSpan.start ≤ c.argumentSpan.stop ∧ c.argumentSpan.stop < c.span.stop := by
  obtain ⟨groups, c', u, n, opens, rfl⟩ := afterName?_eq_some_iff.1 h.read
  obtain ⟨k, rfl, -, -⟩ := opens.skip
  obtain ⟨-, skip⟩ := Cursor.skipStar_append ⟨pos + i + 1 + w.length, r⟩
  simp only [ofGroup, skip, Cursor.pos_skip]
  omega

theorem argument_within (h : c ∈ (inSpan t s names).found) : c.span.start < c.argumentSpan.start ∧
    c.argumentSpan.start ≤ c.argumentSpan.stop ∧ c.argumentSpan.stop < c.span.stop := by
  obtain ⟨w, r, stands⟩ := stands_of_mem_inSpan h
  exact stands.argument_within

theorem atBytes_take {q : Nat} (h : c ∈ (inSpan t s names).found) (hq : s.stop ≤ q) :
    c.atBytes (t.take q) = c.atBytes t := by
  have := start_lt_stop h
  have := bounds_of_mem_inSpan h
  have := argument_within h
  rw [atBytes, atBytes, Text.spanBytes, Text.spanBytes, Text.spanBytes, Text.spanBytes,
    Text.byteOffset_take (by omega), Text.byteOffset_take (by omega), Text.byteOffset_take (by omega),
    Text.byteOffset_take (by omega)]

end Command

theorem Scan.atBytes_congr {α : Type} {s : Scan α} {t u : Text} {f g : α → α} (found : ∀ a ∈ s.found, f a = g a)
    (stopped : ∀ m ∈ s.stopped, m.atByte t = m.atByte u) : s.atBytes t f = s.atBytes u g := by
  rw [Scan.atBytes, Scan.atBytes, List.map_congr_left found]
  cases h : s.stopped with
  | none => rfl
  | some m => rw [Option.map_some, Option.map_some, stopped m h]

/-- Things that lie in a part of a text one after another lie so in its bytes. -/
theorem Advances.of_positions {α : Type} {t : Text} {range : Span} {span : α → Span} {s : Scan α} {f : α → α}
    (image : ∀ a, span (f a) = t.spanBytes (span a)) (hr : range.stop ≤ t.length)
    (within : ∀ a ∈ s.found, range.start ≤ (span a).start ∧ (span a).start < (span a).stop ∧ (span a).stop ≤ range.stop)
    (apart : s.found.Pairwise fun a b => (span a).stop ≤ (span b).start) :
    Advances t.toBytes (t.spanBytes range) span (s.atBytes t f) := by
  refine ⟨?_, ?_, ?_⟩
  · intro a' ha'
    obtain ⟨a, ha, rfl⟩ := List.mem_map.1 ha'
    obtain ⟨after, some_, before⟩ := within a ha
    rw [image]
    exact ⟨Text.isSlice_spanBytes t (Nat.le_of_lt some_), Text.covers_spanBytes t ⟨after, before⟩⟩
  · have stops : (s.atBytes t f).found.map (fun a => (span a).stop) =
        s.found.map fun a => t.byteOffset (span a).stop := by
      rw [Scan.atBytes, List.map_map]
      exact List.map_congr_left fun a _ => congrArg Span.stop (image a)
    have further {p : Nat} {a : α} (ha : a ∈ s.found) (h : p ≤ (span a).start) :
        t.byteOffset p < t.byteOffset (span a).stop := by
      obtain ⟨after, some_, before⟩ := within a ha
      exact Text.byteOffset_lt (by omega) (by omega)
    rw [stops, List.pairwise_cons, List.forall_mem_map]
    refine ⟨fun a ha => further ha (within a ha).1, List.pairwise_map.2 ?_⟩
    exact apart.imp_of_mem fun _ hb h => further hb h
  · intro m' hm'
    obtain ⟨m, -, rfl⟩ := Option.map_eq_some_iff.1 hm'
    exact Text.isBoundary_byteOffset t m.pos

namespace Bytewise

variable {t u : Text} {names : List Text} {p q : Nat}

theorem cut_take (h : q ≤ t.length) : cut t ⟨0, t.byteOffset q⟩ = .ok (t.take q) :=
  cut_byteOffset (t := t) (p := 0) (Nat.zero_le q) h

theorem commandsIn_eq (h : p ≤ q) (hq : q ≤ t.length) (names : List Text) :
    commandsIn t ⟨t.byteOffset p, t.byteOffset q⟩ names =
      .ok ((Command.inSpan t ⟨p, q⟩ names).atBytes t (Command.atBytes t)) := by
  have length : (t.take q).length = q := List.length_take_of_le hq
  rw [commandsIn, cut_take hq, Except.ok_bind, ← Text.byteOffset_take h, commands_eq (t.take q) names (by omega)]
  refine congrArg Except.ok (Scan.atBytes_congr (fun c hc =>
    Command.atBytes_take (s := ⟨p, q⟩) hc (Nat.le_refl q)) fun m hm => ?_)
  have := Command.pos_le_of_stopped hm
  rw [List.length_drop, length] at this
  rw [Malformed.atByte, Malformed.atByte, Text.byteOffset_take (by omega)]

/-- An environment that is never closed is one that a command begins. -/
theorem pos_of_stopped {stopped : Option Malformed} {cs : List Command} {m : Malformed}
    (h : (Environment.pair names stopped cs).stopped = some m) :
    stopped = some m ∨ ∃ b ∈ cs, m.pos = b.span.start := by
  fun_induction Environment.pair names stopped cs with
  | case1 => exact .inl h
  | case2 c cs hc name f rest hf ih =>
    rcases ih h with before | ⟨b, hb, pos⟩
    · exact .inl before
    · have later := (Environment.isSuffix_ending? hf).subset (List.mem_cons_of_mem f hb)
      exact .inr ⟨b, List.mem_cons_of_mem c later, pos⟩
  | case3 c cs hc name hf =>
    cases stopped with
    | some m' => exact .inl h
    | none =>
      obtain rfl := Option.some.inj h
      exact .inr ⟨c, List.mem_cons_self, rfl⟩
  | case4 c cs hc ih =>
    rcases ih h with before | ⟨b, hb, pos⟩
    · exact .inl before
    · exact .inr ⟨b, List.mem_cons_of_mem c hb, pos⟩

theorem environmentsIn_eq (h : p ≤ q) (hq : q ≤ t.length) (names : List Text) :
    environmentsIn t ⟨t.byteOffset p, t.byteOffset q⟩ names =
      .ok ((Environment.inSpan t ⟨p, q⟩ names).atBytes t (Environment.atBytes t)) := by
  have length : (t.take q).length = q := List.length_take_of_le hq
  rw [environmentsIn, cut_take hq, Except.ok_bind, ← Text.byteOffset_take h,
    environments_eq (t.take q) names (by omega)]
  refine congrArg Except.ok (Scan.atBytes_congr (fun e he => ?_) fun m hm => ?_)
  · obtain ⟨-, span, (le : _ ≤ q)⟩ := Environment.bounds_of_mem_inSpan (t := t) (s := ⟨p, q⟩) he
    obtain ⟨begins, ends⟩ := Environment.body_within_of_mem_inSpan (t := t) (s := ⟨p, q⟩) he
    have body := Environment.body_le_of_mem_inSpan (t := t) (s := ⟨p, q⟩) he
    rw [Environment.atBytes, Environment.atBytes, Text.spanBytes, Text.spanBytes, Text.spanBytes, Text.spanBytes,
      Text.byteOffset_take (by omega), Text.byteOffset_take (by omega), Text.byteOffset_take (by omega),
      Text.byteOffset_take (by omega)]
  · have le : m.pos ≤ q := by
      rcases pos_of_stopped hm with stopped | ⟨b, hb, pos⟩
      · have := Command.pos_le_of_stopped stopped
        rw [List.length_drop, length] at this
        omega
      · obtain ⟨-, (le : _ ≤ q)⟩ := Command.bounds_of_mem_inSpan (t := t) (s := ⟨p, q⟩) hb
        have := Command.start_lt_stop hb
        omega
    rw [Malformed.atByte, Malformed.atByte, Text.byteOffset_take le]

theorem lineAt_eq (t : Text) (p : Nat) : lineAt t (t.byteOffset p) = t.lineOf p := by
  rw [lineAt, Text.take_toBytes, Text.count_toBytes (by decide), Text.lineOf]

theorem fault_eq (t : Text) (m : Malformed) : fault t (m.atByte t) = m.fault t :=
  congrArg (Fault.malformed m.construct · m.defect.describe) (lineAt_eq t m.pos)

/-- What becomes of the commands found is the same in bytes. -/
theorem map_atBytes_scan {α : Type} {f : Command → α} {g : Command → α} {h : α → α} (s : Scan Command)
    (eq : ∀ c, g (c.atBytes t) = h (f c)) :
    (s.atBytes t (Command.atBytes t)).map g = (s.map f).atBytes t h := by
  simp only [Scan.atBytes, Scan.map, List.map_map]
  congr 2
  funext c
  exact eq c

theorem marksIn_eq (h : p ≤ q) (hq : q ≤ t.length) :
    marksIn t ⟨t.byteOffset p, t.byteOffset q⟩ = .ok ((Mark.inSpan t ⟨p, q⟩).atBytes t (Mark.atBytes t)) := by
  rw [marksIn, commandsIn_eq h hq]
  refine congrArg Except.ok (map_atBytes_scan _ fun c => ?_)
  exact congrArg (Mark.mk _ _) (lineAt_eq t c.span.start)

theorem commands_all (t : Text) (names : List Text) :
    commands t names 0 = .ok ((Command.all t names).atBytes t (Command.atBytes t)) :=
  commands_eq t names (p := 0) (Nat.zero_le _)

theorem references_eq (t : Text) : references t = .ok ((Reference.all t).atBytes t (Reference.atBytes t)) := by
  rw [references, commands_all]
  refine congrArg Except.ok (map_atBytes_scan _ fun c => ?_)
  exact congrArg (Reference.mk _ _ _) (lineAt_eq t c.span.start)

theorem entries?_chars (h : ∀ c ∈ u, c ≠ '{') (v : Text) :
    GraphicsPath.entries? (u ++ v) = GraphicsPath.entries? v := by
  induction u with
  | nil => rfl
  | cons c u ih =>
    simp only [List.forall_mem_cons] at h
    rw [List.cons_append, GraphicsPath.entries?, if_neg h.1, ih h.2]

/-- The walk reads the directories of pictures. -/
theorem entries?_eq (t : Text) (h : p ≤ t.length) :
    entries? t (t.byteOffset p) = .ok (GraphicsPath.entries? (t.drop p)) := by
  induction n : t.length - p using Nat.strong_induction_on generalizing p with
  | _ n ih =>
    rw [entries?, cut_rest h, Except.ok_bind]
    rcases idxOf?_cases (d := '{') (by decide) t p with ⟨u, v, i, split, hu, index, rest, start⟩ | ⟨none, index⟩
    · obtain ⟨later, first⟩ := byteOffset_of_drop (by decide) rest
      rw [index, split, entries?_chars hu]
      dsimp only
      rw [start, closingBrace?_byteOffset rest, GraphicsPath.entries?, if_pos rfl]
      cases close : braceLength? 0 v with
      | none => rfl
      | some n =>
        obtain ⟨last, inside⟩ := byteOffset_close (by decide) (by decide) rest (getElem?_braceLength? close)
        have on := byteOffset_on (t := t) (p := p) (q := p + u.length + 1 + n + 1) (by omega) (by omega)
        have past : t.drop (p + u.length + 1 + n + 1) = v.drop (n + 1) := by rw [← later, List.drop_drop, Nat.add_assoc]
        rw [Option.map_some, Except.ok_bind]
        dsimp only
        rw [← first, cut_byteOffset (by omega) (by omega), Except.ok_bind, ← last, dif_pos on,
          ih (t.length - (p + u.length + 1 + n + 1)) (by omega) (by omega) rfl, past, Text.slice_eq_take, later]
        rfl
    · have done := entries?_chars none []
      rw [List.append_nil, GraphicsPath.entries?] at done
      rw [index, done]
      rfl

theorem graphicsPaths_eq (t : Text) : graphicsPaths t = .ok (GraphicsPath.ofText t) := by
  rw [graphicsPaths, commands_all, Except.ok_bind, GraphicsPath.ofText, Scan.complete, Scan.atBytes]
  cases (Command.all t ["graphicspath"]).stopped with
  | some m => exact congrArg (fun f => Except.ok (Except.error f)) (fault_eq t m)
  | none =>
    dsimp only [Option.map]
    rw [List.getLast?_map, Except.ok_bind]
    cases (Command.all t ["graphicspath"]).found.getLast? with
    | none => rfl
    | some c =>
      have read : entries? c.argument 0 = .ok (GraphicsPath.entries? c.argument) :=
        entries?_eq c.argument (p := 0) (Nat.zero_le _)
      dsimp only [Option.map, Command.atBytes, Text.spanBytes]
      rw [read, Except.ok_bind]
      cases GraphicsPath.entries? c.argument with
      | some entries => rfl
      | none => exact congrArg (fun f => Except.ok (Except.error f)) (fault_eq t ⟨_, c.span.start, _⟩)

/-! The things found, in bytes. -/

theorem advances_commands (hq : q ≤ t.length) :
    Advances t.toBytes (t.spanBytes ⟨p, q⟩) Command.span
      ((Command.inSpan t ⟨p, q⟩ names).atBytes t (Command.atBytes t)) :=
  .of_positions (fun _ => rfl) hq
    (fun c hc => by
      have := Command.bounds_of_mem_inSpan hc
      have := Command.start_lt_stop hc
      omega)
    Command.pairwise_found

theorem advances_environments (hq : q ≤ t.length) :
    Advances t.toBytes (t.spanBytes ⟨p, q⟩) Environment.span
      ((Environment.inSpan t ⟨p, q⟩ names).atBytes t (Environment.atBytes t)) :=
  .of_positions (fun _ => rfl) hq (fun _ he => Environment.bounds_of_mem_inSpan he)
    (Environment.pairwise_pair Command.pairwise_found)

/-- What is made of commands, with their spans, is found one after another as they are. -/
theorem advances_map {α : Type} {f : Command → α} {g : α → α} {span : α → Span} (hq : q ≤ t.length)
    (spans : ∀ c, span (f c) = c.span) (image : ∀ a, span (g a) = t.spanBytes (span a)) :
    Advances t.toBytes (t.spanBytes ⟨p, q⟩) span (((Command.inSpan t ⟨p, q⟩ names).map f).atBytes t g) := by
  refine .of_positions image hq ?_ (List.pairwise_map.2 ?_)
  · intro a ha
    obtain ⟨c, hc, rfl⟩ := List.mem_map.1 ha
    have := Command.bounds_of_mem_inSpan hc
    have := Command.start_lt_stop hc
    rw [spans]
    omega
  · simp only [spans]
    exact Command.pairwise_found

theorem argument_isSlice {c : Command} {s : Span}
    (h : c ∈ ((Command.inSpan t s names).atBytes t (Command.atBytes t)).found) :
    IsSlice t.toBytes c.argumentSpan ∧ c.span.Covers c.argumentSpan := by
  obtain ⟨c, hc, rfl⟩ := List.mem_map.1 h
  obtain ⟨after, le, before⟩ := Command.argument_within hc
  exact ⟨Text.isSlice_spanBytes t le, Text.covers_spanBytes t ⟨Nat.le_of_lt after, Nat.le_of_lt before⟩⟩

theorem body_isSlice {e : Environment} {s : Span}
    (h : e ∈ ((Environment.inSpan t s names).atBytes t (Environment.atBytes t)).found) :
    IsSlice t.toBytes e.body ∧ e.span.Covers e.body := by
  obtain ⟨e, he, rfl⟩ := List.mem_map.1 h
  obtain ⟨after, before⟩ := Environment.body_within_of_mem_inSpan he
  exact ⟨Text.isSlice_spanBytes t (Environment.body_le_of_mem_inSpan he),
    Text.covers_spanBytes t ⟨Nat.le_of_lt after, Nat.le_of_lt before⟩⟩

end Bytewise

/-- Arguments whose offsets are boundaries from a given one on. -/
structure Arguments.AreSlices (b : Bytes) (pos : Nat) (a : Arguments) : Prop where
  le : pos ≤ a.stop
  stop : IsBoundary b a.stop
  mandatory : ∀ s ∈ a.mandatory, IsSlice b s ∧ Span.Covers ⟨pos, a.stop⟩ s

theorem Arguments.areSlices_atBytes {t construct : Text} {count p : Nat} {a : Arguments} (h : p ≤ t.length)
    (found : read construct count (.ofPosition t p) = .ok (some a)) :
    AreSlices t.toBytes (t.byteOffset p) (a.atBytes t) := by
  obtain ⟨le, -, inside⟩ := read_inside h found
  refine ⟨Text.byteOffset_mono t le, Text.isBoundary_byteOffset t a.stop, fun s' hs' => ?_⟩
  obtain ⟨s, hs, rfl⟩ := List.mem_map.1 hs'
  obtain ⟨after, le, before⟩ := inside s hs
  exact ⟨Text.isSlice_spanBytes t le, Text.byteOffset_mono t after, Text.byteOffset_mono t before⟩

theorem Text.le_of_byteOffset_le {t : Text} {p q : Nat} (hp : p ≤ t.length) (h : t.byteOffset p ≤ t.byteOffset q) :
    p ≤ q := by
  by_contra lt
  have := byteOffset_lt (t := t) (p := q) (q := p) (by omega) (by omega)
  omega

open Bytewise in
/-- No walk over the bytes of a text slips, whatever part of the text it searches: it never cuts a character or leaves
the text, counts no depth below zero, and gets further in every round. It comes to what the search of the text comes
to; and what it finds begins and ends between characters, one thing after another. -/
theorem walks_sound (t : Text) :
    (∀ i j, IsBoundary t.toBytes i → IsBoundary t.toBytes j → i ≤ j →
      (∀ names, ∃ s, commandsIn t ⟨i, j⟩ names = .ok s ∧
        s = (Command.inSpan t (t.spanOfBytes ⟨i, j⟩) names).atBytes t (Command.atBytes t) ∧
        Advances t.toBytes ⟨i, j⟩ Command.span s ∧
        ∀ c ∈ s.found, IsSlice t.toBytes c.argumentSpan ∧ c.span.Covers c.argumentSpan) ∧
      (∀ names, ∃ s, environmentsIn t ⟨i, j⟩ names = .ok s ∧
        s = (Environment.inSpan t (t.spanOfBytes ⟨i, j⟩) names).atBytes t (Environment.atBytes t) ∧
        Advances t.toBytes ⟨i, j⟩ Environment.span s ∧
        ∀ e ∈ s.found, IsSlice t.toBytes e.body ∧ e.span.Covers e.body) ∧
      ∃ s, marksIn t ⟨i, j⟩ = .ok s ∧ s = (Mark.inSpan t (t.spanOfBytes ⟨i, j⟩)).atBytes t (Mark.atBytes t) ∧
        Advances t.toBytes ⟨i, j⟩ Mark.span s) ∧
    (∃ s, references t = .ok s ∧ s = (Reference.all t).atBytes t (Reference.atBytes t) ∧
      Advances t.toBytes ⟨0, t.toBytes.length⟩ Reference.span s) ∧
    (∀ i, IsBoundary t.toBytes i → ∀ construct count, ∃ r, arguments t construct count i = .ok r ∧
      r = atBytes t (Option.map (Arguments.atBytes t))
        (Arguments.read construct count (.ofPosition t (t.position i))) ∧
      (∀ a, r = .ok (some a) → a.AreSlices t.toBytes i) ∧ ∀ m, r = .error m → IsBoundary t.toBytes m.pos) ∧
    graphicsPaths t = .ok (GraphicsPath.ofText t) := by
  refine ⟨fun i j hi hj le => ?_, ⟨_, references_eq t, rfl, ?_⟩, fun i hi construct count => ?_, graphicsPaths_eq t⟩
  · obtain ⟨p, hp, rfl⟩ := Text.isBoundary_iff.1 hi
    obtain ⟨q, hq, rfl⟩ := Text.isBoundary_iff.1 hj
    have le := Text.le_of_byteOffset_le hp le
    have range : t.spanOfBytes ⟨t.byteOffset p, t.byteOffset q⟩ = ⟨p, q⟩ := by
      rw [Text.spanOfBytes, Text.position_byteOffset t p hp, Text.position_byteOffset t q hq]
    rw [range]
    exact ⟨fun names => ⟨_, commandsIn_eq le hq names, rfl, advances_commands hq, fun _ => argument_isSlice⟩,
      fun names => ⟨_, environmentsIn_eq le hq names, rfl, advances_environments hq, fun _ => body_isSlice⟩,
      _, marksIn_eq le hq, rfl, advances_map hq (fun _ => rfl) fun _ => rfl⟩
  · have whole : Advances t.toBytes (t.spanBytes ⟨0, t.length⟩) Reference.span
        (((Command.inSpan t ⟨0, t.length⟩ Reference.commandNames).map (Reference.ofCommand t)).atBytes t
          (Reference.atBytes t)) :=
      advances_map (Nat.le_refl _) (fun _ => rfl) fun _ => rfl
    rw [← Command.all_eq_inSpan, Text.spanBytes, Text.byteOffset_length, ← Text.length_toBytes] at whole
    exact whole
  · obtain ⟨p, hp, rfl⟩ := Text.isBoundary_iff.1 hi
    rw [Text.position_byteOffset t p hp]
    refine ⟨_, arguments_eq t construct count hp, rfl, fun a ha => ?_, fun m hm => ?_⟩
    · cases read : Arguments.read construct count (.ofPosition t p) with
      | error m => simp [read, atBytes] at ha
      | ok a? =>
        rw [read] at ha
        obtain ⟨a, rfl, rfl⟩ := Option.map_eq_some_iff.1 (Except.ok.inj ha)
        exact Arguments.areSlices_atBytes hp read
    · cases read : Arguments.read construct count (.ofPosition t p) with
      | error m =>
        rw [read] at hm
        obtain rfl := Except.error.inj hm
        exact Text.isBoundary_byteOffset t m.pos
      | ok a? => simp [read, atBytes] at hm

end FloatFlattening
