import FloatFlattening.Proofs.Markup.Found
import FloatFlattening.Proofs.Text
/-!
Searches of a text in two parts. Where neither an escape nor a command goes on from one part into
the other, the search of the whole is the search of the parts.
-/

namespace FloatFlattening

namespace Scan

instance : Append (Scan α) where
  append s t := ⟨s.found ++ t.found, s.stopped <|> t.stopped⟩

@[simp] theorem found_append (s t : Scan α) : (s ++ t).found = s.found ++ t.found := rfl

@[simp] theorem stopped_append (s t : Scan α) : (s ++ t).stopped = (s.stopped <|> t.stopped) := rfl

@[simp] theorem done_append (s : Scan α) : done ++ s = s := by
  cases s
  rfl

theorem append_append (found before : List α) (s : Scan α) :
    (⟨found, none⟩ ++ (⟨before, none⟩ ++ s) : Scan α) = ⟨found ++ before, none⟩ ++ s :=
  congrArg (Scan.mk · s.stopped) (List.append_assoc found before s.found).symm

theorem append_eq {s t : Scan α} (hs : s.stopped = none) (ht : t.stopped = none) :
    s ++ t = ⟨s.found ++ t.found, none⟩ := by
  obtain ⟨found, stopped⟩ := s
  obtain rfl : stopped = none := hs
  exact congrArg (Scan.mk _) ht

@[simp] theorem cons_append (a : α) (s t : Scan α) : s.cons a ++ t = (s ++ t).cons a := rfl

end Scan

/-- A place where a text can be cut without cutting an escape or a command. -/
structure Seam (s t : Text) : Prop where
  free : Text.escapes s = false
  apart : (∀ c ∈ s.getLast?, Text.awaits c = false) ∨ ∀ c ∈ t.head?, Text.goesOn c = false

namespace Seam

variable {s t u : Text}

theorem of_append (h : Seam (s ++ t) u) (free : Text.escapes s = false) : Seam t u where
  free := by rw [← Text.escapes_append free, h.free]
  apart := by
    refine h.apart.imp_left fun last => ?_
    cases t with
    | nil => simp
    | cons x t => rwa [List.getLast?_append_of_ne_nil _ (List.cons_ne_nil x t)] at last

theorem of_head (free : Text.escapes s = false) (h : ∀ c ∈ t.head?, Text.goesOn c = false) :
    Seam s t := ⟨free, .inr h⟩

/-- Past a character that ends whatever it stands in. -/
theorem of_getLast? {x : Char} (h : s.getLast? = some x) (hx : Text.awaits x = false)
    (hx' : x ≠ '\\') : Seam s t :=
  ⟨Text.escapes_of_getLast? h hx', .inl fun c hc => by simp_all⟩

/-- A control word that ends one part ends there also in the whole. -/
theorem word {w r : Text} (h : Seam ('\\' :: (w ++ r)) t) (hw : Command.Word w r) :
    Command.Word w (r ++ t) ∧
      ((r ≠ [] ∧ ∀ x ∈ r.getLast?, Text.awaits x = false) ∨ ∀ x ∈ t.head?, Text.goesOn x = false) := by
  cases r with
  | nil =>
    have last : ∃ x ∈ ('\\' :: (w ++ [])).getLast?, Text.awaits x := by
      refine ⟨w.getLast hw.ne_nil, ?_, by simp [Text.awaits, hw.letters _ (List.getLast_mem _)]⟩
      simp [List.getLast?_cons, List.getLast?_eq_some_getLast hw.ne_nil]
    have head := h.apart.resolve_left fun none => by
      obtain ⟨x, hx, hx'⟩ := last
      simp [none x hx] at hx'
    refine ⟨hw.append_of_head fun c hc => ?_, .inr head⟩
    have := head c hc
    simp_all [Text.goesOn]
  | cons x r =>
    refine ⟨hw.append (List.cons_ne_nil x r) t, h.apart.imp_left fun last => ⟨by simp, ?_⟩⟩
    rwa [← List.cons_append, List.getLast?_append_of_ne_nil _ (List.cons_ne_nil x r)] at last

/-- A control word that begins in one part ends there. -/
theorem exists_word {w r : Text} (h : Seam ('\\' :: s) t) (hw : Command.Word w r)
    (e : s ++ t = w ++ r) : ∃ s', s = w ++ s' ∧ r = s' ++ t := by
  rcases List.append_eq_append_iff.1 e with ⟨w', rfl, rfl⟩ | ⟨s', rfl, rfl⟩
  · cases w' with
    | nil => exact ⟨[], by simp⟩
    | cons x w' =>
      exfalso
      rcases h.apart with last | head
      · rcases List.eq_nil_or_concat s with rfl | ⟨s, y, rfl⟩
        · simpa [Text.escapes, Text.escapeStep] using h.free
        · have := last y (by simp [List.getLast?_cons])
          simp [Text.awaits, hw.letters y (by simp)] at this
      · have := head x rfl
        simp [Text.goesOn, hw.letters x (by simp)] at this
  · exact ⟨s', rfl, rfl⟩

end Seam

namespace Command

variable {names : List Text} {pos : Nat} {s t : Text} {c : Command}

theorem scan_append (h : (scan names pos s).stopped = none) (seam : Seam s t) :
    scan names pos (s ++ t) = scan names pos s ++ scan names (pos + s.length) t := by
  induction pos, s using scan_induction names with
  | nil => simp
  | lone pos => simpa [Text.escapes, Text.escapeStep] using seam.free
  | other pos x s hx ih =>
    rw [scan_other hx] at h ⊢
    have free : Text.escapes [x] = false := by simp [Text.escapes_cons hx]
    rw [List.cons_append, scan_other hx, ih h (seam.of_append (s := [x]) free),
      List.length_cons, Nat.add_right_comm, Nat.add_assoc]
  | symbol pos x s hx ih =>
    rw [scan_symbol hx] at h ⊢
    rw [List.cons_append, List.cons_append, scan_symbol hx,
      ih h (seam.of_append (s := ['\\', x]) (by simp)), List.length_cons, List.length_cons,
      Nat.add_right_comm, Nat.add_assoc]
  | mention pos w r hw hn ih =>
    obtain ⟨longer, rest⟩ := seam.word hw
    rw [scan_mention hw hn] at h ⊢
    have pos' : pos + 1 + w.length + r.length = pos + ('\\' :: (w ++ r)).length := by
      simp
      omega
    rw [List.cons_append, List.append_assoc,
      scan_mention longer fun hm => afterName?_none_extend (hn hm) rest,
      ih h (seam.of_append (s := '\\' :: w) hw.escapes), pos']
  | stopped pos w r m hw hn hm => simp [scan_stopped hw hn hm, Scan.stop] at h
  | command pos w r d k hw hn ha start stop close ih =>
    obtain ⟨longer, -⟩ := seam.word hw
    have hk := (List.getElem?_eq_some_iff.1 close).1
    rw [scan_command hw hn ha stop] at h ⊢
    have rest : Seam (r.drop (k + 1)) t :=
      Seam.of_append (by simpa [List.append_assoc] using seam) (hw.escapes_take close)
    have pos' : d.span.stop + (r.drop (k + 1)).length = pos + ('\\' :: (w ++ r)).length := by
      simp
      omega
    rw [List.cons_append, List.append_assoc,
      scan_command longer hn (afterName?_some_extend ha t) stop,
      List.drop_append_of_le_length (by omega), ih h rest, pos', Scan.cons_append]

/-- Two parts of a text that no command found in the whole goes over. -/
structure Severed (names : List Text) (pos : Nat) (s t : Text) : Prop where
  whole : (scan names pos (s ++ t)).stopped = none
  seam : Seam s t
  apart : ∀ c ∈ (scan names pos (s ++ t)).found, pos + s.length ≤ c.span.start ∨ c.span.stop ≤ pos + s.length

/-- A search finds some commands in the first part, and then those of the second. -/
def Splits (names : List Text) (pos : Nat) (s t : Text) : Prop :=
  ∃ before, scan names pos (s ++ t) = ⟨before, none⟩ ++ scan names (pos + s.length) t ∧
    ∀ c ∈ before, c.span.stop ≤ pos + s.length

theorem splits_nil (names : List Text) (pos : Nat) (t : Text) : Splits names pos [] t := ⟨[], by rfl, by simp⟩

/-- One step of a search of two parts, which reads the first of these three texts. -/
theorem Severed.step {u : Text} (h : Severed names pos (u ++ s) t) (found : List Command)
    (free : Text.escapes u = false)
    (read : scan names pos (u ++ (s ++ t)) = ⟨found, none⟩ ++ scan names (pos + u.length) (s ++ t))
    (inside : ∀ c ∈ found, c.span.stop ≤ pos + u.length)
    (ih : Severed names (pos + u.length) s t → Splits names (pos + u.length) s t) : Splits names pos (u ++ s) t := by
  have length : pos + (u ++ s).length = pos + u.length + s.length := by rw [List.length_append, Nat.add_assoc]
  obtain ⟨whole, seam, apart⟩ := h
  rw [List.append_assoc, read] at whole apart
  rw [length] at apart
  obtain ⟨before, eq, le⟩ := ih ⟨whole, seam.of_append free, fun c hc => apart c (List.mem_append_right found hc)⟩
  refine ⟨found ++ before, ?_, fun c hc => ?_⟩
  · rw [List.append_assoc, read, eq, length, Scan.append_append]
  · rw [length]
    rcases List.mem_append.1 hc with hc | hc
    · exact (inside c hc).trans (Nat.le_add_right _ _)
    · exact le c hc

theorem Severed.splits (h : Severed names pos s t) : Splits names pos s t := by
  generalize e : s ++ t = u
  induction pos, u using scan_induction names generalizing s with
  | nil pos =>
    obtain ⟨rfl, rfl⟩ := List.append_eq_nil_iff.1 e
    exact splits_nil names pos []
  | lone pos =>
    cases s with
    | nil => exact splits_nil names pos t
    | cons y s =>
      obtain ⟨rfl, rest⟩ := List.cons.inj e
      obtain ⟨rfl, -⟩ := List.append_eq_nil_iff.1 rest
      simpa [Text.escapes, Text.escapeStep] using h.seam.free
  | other pos x u hx ih =>
    cases s with
    | nil => exact splits_nil names pos t
    | cons y s =>
      obtain ⟨rfl, rfl⟩ := List.cons.inj e
      exact h.step (u := [y]) [] (by simp [Text.escapes_cons hx]) ((scan_other hx).trans (Scan.done_append _).symm)
        (by simp) fun h => ih h rfl
  | symbol pos x u hx ih =>
    rcases s with _ | ⟨y, _ | ⟨z, s⟩⟩
    · exact splits_nil names pos t
    · obtain ⟨rfl, -⟩ := List.cons.inj e
      simpa [Text.escapes, Text.escapeStep] using h.seam.free
    · obtain ⟨rfl, rest⟩ := List.cons.inj e
      obtain ⟨rfl, rfl⟩ := List.cons.inj rest
      exact h.step (u := ['\\', z]) [] (by simp) ((scan_symbol hx).trans (Scan.done_append _).symm) (by simp)
        fun h => ih h rfl
  | mention pos w r hw hn ih =>
    cases s with
    | nil => exact splits_nil names pos t
    | cons y s =>
      obtain ⟨rfl, rest⟩ := List.cons.inj e
      obtain ⟨s, rfl, rfl⟩ := h.seam.exists_word hw rest
      have length : pos + ('\\' :: w).length = pos + 1 + w.length := by
        rw [List.length_cons, Nat.add_comm w.length, Nat.add_assoc]
      refine h.step (u := '\\' :: w) [] hw.escapes ?_ (by simp) ?_ <;> rw [length]
      · exact (scan_mention hw hn).trans (Scan.done_append _).symm
      · exact fun h => ih h rfl
  | stopped pos w r m hw hn hm =>
    have whole := h.whole
    rw [e] at whole
    simp [scan_stopped hw hn hm, Scan.stop] at whole
  | command pos w r d k hw hn ha start stop close ih =>
    cases s with
    | nil => exact splits_nil names pos t
    | cons y s =>
      obtain ⟨rfl, rest⟩ := List.cons.inj e
      obtain ⟨s, rfl, rfl⟩ := h.seam.exists_word hw rest
      have read := scan_command hw hn ha stop
      have inside : k + 1 ≤ s.length := by
        have := h.apart d (by simp [read])
        simp at this
        omega
      rw [List.getElem?_append_left inside] at close
      have drop : (s ++ t).drop (k + 1) = s.drop (k + 1) ++ t := List.drop_append_of_le_length inside
      have length : pos + ('\\' :: (w ++ s.take (k + 1))).length = d.span.stop := by
        simp
        omega
      have parts : '\\' :: (w ++ s) = '\\' :: (w ++ s.take (k + 1)) ++ s.drop (k + 1) := by simp
      rw [parts] at h ⊢
      refine h.step [d] (hw.of_append.escapes_take close) ?_ ?_ ?_ <;> rw [length]
      · rw [← List.append_assoc, ← parts, ← drop, e, read]
        exact congrArg (Scan.cons d) (Scan.done_append _).symm
      · exact List.forall_mem_singleton.2 le_rfl
      · exact fun h => ih h drop.symm

/-- Past a seam that no command found goes over, a search is that of the rest. -/
theorem exists_scan_eq (h : (scan names pos (s ++ t)).stopped = none) (seam : Seam s t)
    (apart : ∀ c ∈ (scan names pos (s ++ t)).found,
      pos + s.length ≤ c.span.start ∨ c.span.stop ≤ pos + s.length) :
    ∃ before, scan names pos (s ++ t) = ⟨before, none⟩ ++ scan names (pos + s.length) t ∧
      ∀ c ∈ before, c.span.stop ≤ pos + s.length :=
  Severed.splits ⟨h, seam, apart⟩

/-- A use of a command is found unless one found lies around it. -/
theorem exists_holds {w r : Text} (h : (scan names pos (s ++ '\\' :: (w ++ r))).stopped = none)
    (free : Text.escapes s = false) (hw : Word w r) (hn : w ∈ names)
    (use : afterName? w (pos + s.length) ⟨pos + s.length + 1 + w.length, r⟩ ≠ .ok none) :
    ∃ c ∈ (scan names pos (s ++ '\\' :: (w ++ r))).found, c.span.Holds (pos + s.length) := by
  by_contra none
  have seam : Seam s ('\\' :: (w ++ r)) := .of_head free (by simp [Text.goesOn]; decide)
  obtain ⟨before, eq, -⟩ := exists_scan_eq h seam fun c hc => by
    by_contra across
    exact none ⟨c, hc, by omega, by omega⟩
  have rest : (scan names (pos + s.length) ('\\' :: (w ++ r))).stopped = .none := by
    simpa [eq] using h
  cases ha : afterName? w (pos + s.length) ⟨pos + s.length + 1 + w.length, r⟩ with
  | error m => simp [scan_stopped hw hn ha, Scan.stop] at rest
  | ok c? =>
    cases c? with
    | none => exact use ha
    | some c =>
      obtain ⟨-, start, k, stop, -⟩ := span_of_afterName? ha
      refine none ⟨c, ?_, start.le, by omega⟩
      simp [eq, scan_command hw hn ha stop]

/-! Parts of one text. -/

variable {u : Text} {b : Span}

/-- What is found in a part of a text, when nothing found in the whole lies over its beginning. -/
theorem exists_all_eq (hb : b.start ≤ b.stop) (hu : b.stop ≤ u.length)
    (whole : (all u names).stopped = none) (part : (inSpan u b names).stopped = none)
    (left : Seam (u.take b.start) (u.drop b.start)) (right : Seam (u.slice b) (u.drop b.stop))
    (apart : ∀ c ∈ (all u names).found, b.start ≤ c.span.start ∨ c.span.stop ≤ b.start) :
    ∃ before after, (all u names).found = before ++ ((inSpan u b names).found ++ after) ∧
      (∀ c ∈ before, c.span.stop ≤ b.start) ∧ ∀ c ∈ after, b.stop ≤ c.span.start := by
  have start : 0 + (u.take b.start).length = b.start := by simp; omega
  have length : b.start + (u.slice b).length = b.stop := by simp; omega
  have parts : u.drop b.start = u.slice b ++ u.drop b.stop := by
    rw [Text.slice, ← List.drop_append_of_le_length (by simp; omega), List.take_append_drop]
  rw [all, ← List.take_append_drop b.start u] at whole apart ⊢
  obtain ⟨before, eq, le⟩ := exists_scan_eq whole left (by rwa [start])
  rw [List.take_append_drop] at eq ⊢
  rw [start] at eq le
  rw [parts, scan_append part right, length] at eq
  exact ⟨before, _, by rw [eq]; rfl, le, fun c hc => le_start hc⟩

/-- In a part of a text where a command lies, something is found that lies around its beginning. -/
theorem exists_inSpan_holds (h : c ∈ (all u names).found) (inside : b.Covers c.span)
    (part : (inSpan u b names).stopped = none) (free : Text.escapes (u.take b.start) = false)
    (ends : ∀ x ∈ (u.drop b.stop).head?, Text.goesOn x = false) :
    ∃ d ∈ (inSpan u b names).found, d.span.Holds c.span.start := by
  obtain ⟨i, w, r, hi, free'⟩ := exists_standsAt h
  obtain ⟨-, -, k, stop, close⟩ := span_of_afterName? hi.read
  obtain ⟨start', stop'⟩ := inside
  have i_eq := hi.start
  rw [Nat.zero_add] at i_eq stop
  -- The part is cut into what stands before the command, its word and what follows that.
  obtain ⟨n, hn⟩ : ∃ n, b.stop = i + 1 + w.length + n := ⟨b.stop - (i + 1 + w.length), by omega⟩
  have rest : r.take n ++ u.drop b.stop = r := by
    have : u.drop b.stop = r.drop n := by
      rw [hn, Nat.add_assoc, Nat.add_assoc, ← List.drop_drop, hi.text, ← Nat.add_assoc, Word.drop]
    rw [this, List.take_append_drop]
  have within : i < u.length := by
    have := congrArg List.length hi.text
    simp at this
    omega
  have before : ((u.take i).drop b.start).length = i - b.start := by
    simp
    omega
  have slice : u.slice b = (u.take i).drop b.start ++ '\\' :: (w ++ r.take n) := by
    have : u.take b.stop = u.take i ++ '\\' :: (w ++ r.take n) := by
      rw [show b.stop = i + (1 + w.length + n) by omega, List.take_add, hi.text,
        show 1 + w.length + n = w.length + n + 1 by omega, List.take_succ_cons,
        List.take_length_add_append]
    rw [Text.slice, this, List.drop_append_of_le_length]
    simp
    omega
  have use : afterName? w (b.start + ((u.take i).drop b.start).length)
      ⟨b.start + ((u.take i).drop b.start).length + 1 + w.length, r.take n⟩ ≠ .ok none := by
    intro none
    have := afterName?_none_extend none (.inr ends)
    rw [Cursor.extend, rest, before, show b.start + (i - b.start) = 0 + i by omega, hi.read] at this
    simp at this
  have free : Text.escapes ((u.take i).drop b.start) = false := by
    rw [← List.take_append_drop b.start (u.take i), List.take_take, Nat.min_eq_left (by omega),
      Text.escapes_append free] at free'
    exact free'
  obtain ⟨d, hd, holds⟩ := exists_holds (by rwa [← slice]) free (hi.word.take n) hi.mem use
  refine ⟨d, by rwa [inSpan, slice], ?_⟩
  rwa [before, show b.start + (i - b.start) = c.span.start by omega] at holds

/-! Rests of a text, cut once more. -/

variable {names' : List Text} {s : Span} {i j : Nat}

theorem slice_rest (hij : i ≤ j) (hj : j ≤ u.length) :
    u.slice ⟨i, u.length⟩ = u.slice ⟨i, j⟩ ++ u.slice ⟨j, u.length⟩ ∧ i + (u.slice ⟨i, j⟩).length = j := by
  refine ⟨(Text.slice_append u hij hj le_rfl).symm, ?_⟩
  simp
  omega

theorem inSpan_append (hij : i ≤ j) (hj : j ≤ u.length) (part : (inSpan u ⟨i, j⟩ names).stopped = none)
    (seam : Seam (u.slice ⟨i, j⟩) (u.drop j)) :
    inSpan u ⟨i, u.length⟩ names = inSpan u ⟨i, j⟩ names ++ inSpan u ⟨j, u.length⟩ names := by
  obtain ⟨parts, length⟩ := slice_rest hij hj
  have rest := Text.slice_eq_drop u j
  rw [inSpan, parts, rest, scan_append part seam, length, ← rest]
  rfl

theorem exists_inSpan_eq (hij : i ≤ j) (hj : j ≤ u.length) (whole : (inSpan u ⟨i, u.length⟩ names).stopped = none)
    (seam : Seam (u.slice ⟨i, j⟩) (u.drop j))
    (apart : ∀ c ∈ (inSpan u ⟨i, u.length⟩ names).found, j ≤ c.span.start ∨ c.span.stop ≤ j) :
    ∃ before, inSpan u ⟨i, u.length⟩ names = ⟨before, none⟩ ++ inSpan u ⟨j, u.length⟩ names ∧
      ∀ c ∈ before, c.span.stop ≤ j := by
  obtain ⟨parts, length⟩ := slice_rest hij hj
  have rest := Text.slice_eq_drop u j
  rw [inSpan, parts, rest] at whole apart ⊢
  obtain ⟨before, eq, le⟩ := exists_scan_eq whole seam (by rwa [length])
  rw [length] at eq le
  exact ⟨before, by rw [eq, ← rest]; rfl, le⟩

/-- A text can be cut where a command begins. -/
theorem seam_start (h : c ∈ (inSpan u s names).found) (free : Text.escapes t = false) :
    Seam t (u.drop c.span.start) := by
  obtain ⟨w, r, hi⟩ := stands_of_mem_inSpan h
  refine .of_head free ?_
  rw [hi.text]
  rintro _ ⟨⟩
  rfl

/-- A text can be cut where a command ends. -/
theorem seam_stop (h : c ∈ (inSpan u s names).found) (lt : i < c.span.stop) (t : Text) :
    Seam (u.slice ⟨i, c.span.stop⟩) t := by
  obtain ⟨w, r, hi⟩ := stands_of_mem_inSpan h
  obtain ⟨n, -, stop, close, le⟩ := hi.stop
  obtain rfl : c.span.stop = n := by simpa using stop
  refine .of_getLast? (x := '}') ?_ (by decide) (by decide)
  have length : (u.take c.span.stop).length = c.span.stop := by simp [le]
  rw [Text.slice]
  dsimp only
  rw [List.getLast?_drop, length, if_neg (by omega), List.getLast?_eq_getElem?, length,
    List.getElem?_take_of_lt (by omega), close]

end Command

end FloatFlattening
