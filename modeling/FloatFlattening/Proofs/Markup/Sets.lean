import FloatFlattening.Proofs.Markup.Ids
import FloatFlattening.Proofs.Text
/-!
Plain markup with the labels it sets. Pieces of it put together set the labels of each, in order.
-/

namespace FloatFlattening

open Text

theorem Text.Plain.slice {names : List Text} {t : Text} {s : Span} (h : Plain names t)
    (hs : ∀ c ∈ (t.drop s.stop).head?, c = '\\') : Plain names (t.slice s) := by
  have before : Plain names (t.take s.stop) :=
    Plain.of_append (t := t.drop s.stop) (by rwa [List.take_append_drop]) (.inr hs)
  exact before.of_isSuffix (List.drop_suffix _ _)

namespace Command

variable {w r : Text}

theorem plain_of_word (hw : Word w r) (hr : ∀ c ∈ r, c ≠ '\\') (h : PlainArgument r) :
    Plain Mark.commandNames ('\\' :: (w ++ r)) := by
  refine .of_argument fun s w' r' e hw' ends => ?_
  cases s with
  | nil =>
    have e : w ++ r = w' ++ r' := (List.cons.inj e).2
    have word : Word w' r' := ⟨(Mark.letters w' hw').1, (Mark.letters w' hw').2, ends⟩
    obtain rfl : w = w' := by rw [← hw.takeWhile, e, word.takeWhile]
    rwa [← List.append_cancel_left e]
  | cons x s =>
    have mem : '\\' ∈ w ++ r := by
      rw [(List.cons.inj e).2]
      simp
    rcases List.mem_append.1 mem with mem | mem
    · exact absurd (hw.letters _ mem) (by decide)
    · exact absurd rfl (hr _ mem)

theorem ids_of_word (hw : Word w r) (hn : w ≠ "label") (hr : ∀ c ∈ r, c ≠ '\\') :
    Mark.ids ('\\' :: (w ++ r)) = [] := by
  rw [Mark.ids_eq, all, scan_mention hw fun hm => absurd (List.mem_singleton.1 hm) hn,
    found_of_forall_ne hr]
  rfl

end Command

/-- A plain text and the labels that it sets. -/
structure Sets (t : Text) (ids : List Text) : Prop where
  plain : Text.Plain Mark.commandNames t
  ids : Mark.ids t = ids

namespace Sets

variable {s t : Text} {l l' : List Text}

theorem append (hs : Sets s l) (ht : Sets t l') (cut : Cut s t) : Sets (s ++ t) (l ++ l') where
  plain := hs.plain.append (fun w hw => (Mark.letters w hw).2) ht.plain cut
  ids := by
    rw [← hs.ids, ← ht.ids, Mark.ids_eq, Mark.ids_eq, Mark.ids_eq, Command.all,
      Command.scan_append (Command.stopped_of_plain hs.plain Mark.label_subset) cut.seam,
      Scan.found_append, List.map_append, List.map_append,
      Command.arguments_of_plain ht.plain Mark.label_subset 0]
    rfl

theorem of_forall_ne (h : ∀ c ∈ t, c ≠ '\\') : Sets t [] where
  plain := .of_forall_ne h
  ids := by rw [Mark.ids_eq, Command.all, Command.found_of_forall_ne h]; rfl

/-- A command with a plain argument in a text without others. -/
theorem of_command {w a r : Text} (hw : w ≠ []) (letters : ∀ c ∈ w, c.isAlpha) (ha : ∀ c ∈ a, isInner c)
    (hr : ∀ c ∈ r, c ≠ '\\') :
    Sets ('\\' :: (w ++ '{' :: (a ++ '}' :: r))) (if w = "label" then [a.trim] else []) := by
  have word : Command.Word w ('{' :: (a ++ '}' :: r)) := ⟨hw, letters, by simp⟩
  have apart := ne_slash_of_group ha hr
  refine ⟨Command.plain_of_word word apart (plainArgument_of_group rfl ha), ?_⟩
  split
  next eq =>
    obtain ⟨k, -, some⟩ := Command.read_group (r := '{' :: (a ++ '}' :: r)) rfl ha
    obtain ⟨c, hc, stop, argument⟩ := some w 0 (0 + 1 + w.length)
    rw [Mark.ids_eq, Command.all, Command.scan_command word (by simp [eq]) hc stop, Scan.found_cons,
      Command.found_of_forall_ne fun d hd => apart d (List.mem_of_mem_drop hd), List.map_singleton,
      List.map_singleton, argument]
  next ne => exact Command.ids_of_word word ne apart

end Sets

/-- Markup that is apart from what stands around it. -/
structure Closed (t : Text) (ids : List Text) : Prop where
  sets : Sets t ids
  begins : t.head? = some '\\'
  ends : Ends t

theorem Closed.ne_nil {t : Text} {l : List Text} (h : Closed t l) : t ≠ [] := by
  rintro rfl
  cases h.begins

/-- What ends a text, opens one and is escaped in one is the same in both. -/
structure Alike (s t : Text) : Prop where
  escapes : escapes s = escapes t
  head : s.head? = t.head?
  ends : Ends t → Ends s

theorem Alike.refl (t : Text) : Alike t t := ⟨rfl, rfl, id⟩

/-- One closed piece for another, with texts alike after them. -/
theorem Alike.exchange {s t u v : Text} (h : Alike s t) {l l' : List Text} (hu : Closed u l) (hv : Closed v l') (r : Text)
    (free : Text.escapes r = false) : Alike (r ++ (u ++ s)) (r ++ (v ++ t)) where
  escapes := by
    rw [escapes_append free, escapes_append free, escapes_append hu.ends.escapes,
      escapes_append hv.ends.escapes, h.escapes]
  head := by
    cases r with
    | cons c r => rfl
    | nil =>
      rw [List.nil_append, List.nil_append, List.head?_append_of_ne_nil _ hu.ne_nil,
        List.head?_append_of_ne_nil _ hv.ne_nil, hu.begins, hv.begins]
  ends := by
    intro ends
    by_cases ht : t = []
    · obtain rfl : s = [] := by simpa [ht] using h.head
      simpa using hu.ends.append r
    · have ends := ends.of_append (by simp [ht])
      exact ((h.ends (ends.of_append ht)).append u).append r

theorem Alike.closed {s t : Text} {l l' : List Text} (h : Alike s t) (ht : Closed t l) (hs : Sets s l') :
    Closed s l' := ⟨hs, h.head.trans ht.begins, h.ends ht.ends⟩

namespace Command

variable {t : Text} {c : Command}

theorem exists_skipStar (c : Cursor) : ∃ k, c.skipStar = c.skip k := by
  rw [Cursor.skipStar]
  split
  · exact ⟨1, rfl⟩
  · exact ⟨0, rfl⟩

/-- Where the argument of a command stands. -/
theorem exists_argument {names : List Text} {s : Span} (h : c ∈ (inSpan t s names).found) :
    ∃ i n, c.argument = t.slice ⟨i + 1, i + 1 + n⟩ ∧ c.span.start ≤ i ∧ i + 1 + n < c.span.stop ∧
      t[i]? = some '{' ∧ braceLength? 0 (t.drop (i + 1)) = some n := by
  obtain ⟨w, r, hc⟩ := stands_of_mem_inSpan h
  obtain ⟨groups, c', u, n, opens, eq⟩ := afterName?_eq_some_iff.1 hc.read
  obtain ⟨k, rfl, text, -⟩ := opens.skip
  obtain ⟨j, star⟩ := exists_skipStar ⟨0 + c.span.start + 1 + w.length, r⟩
  rw [star] at text eq
  have rest : t.drop (c.span.start + 1 + w.length + j + k) = '{' :: u := by
    rw [← text, Cursor.rest_skip, ← List.drop_drop, ← List.drop_drop, Nat.add_assoc _ 1, ← List.drop_drop,
      hc.text, Nat.add_comm 1, List.drop_succ_cons, List.drop_left]
  have after : t.drop (c.span.start + 1 + w.length + j + k + 1) = u := by
    rw [← List.drop_drop, rest, List.drop_succ_cons, List.drop_zero]
  have stop : c.span.stop = c.span.start + 1 + w.length + j + k + (n + 2) := by
    rw [eq]
    simp [ofGroup, Cursor.skip]
  refine ⟨c.span.start + 1 + w.length + j + k, n, ?_, by omega, by omega, ?_, ?_⟩
  · rw [slice_eq_take, after, eq]
    rfl
  · rw [← List.head?_drop, rest]
    rfl
  · rw [after, opens.length]

theorem inner_argument {names : List Text} {s : Span} (h : Plain Mark.commandNames t)
    (sub : names ⊆ Mark.commandNames) (hc : c ∈ (inSpan t s names).found) :
    ∀ x ∈ c.argument, isInner x := by
  obtain ⟨w, r, hi⟩ := stands_of_mem_inSpan hc
  have rest : Plain Mark.commandNames ('\\' :: (w ++ r)) := by
    rw [← hi.text]
    exact h.of_isSuffix (List.drop_suffix _ t)
  have plain := Plain.argument (s := []) rest (sub hi.mem) hi.word.ends
  rcases read_plain plain with none | ⟨k, a, -, inner, some⟩
  · simpa [none] using hi.read
  · obtain ⟨d, hd, -, argument⟩ := some w (0 + c.span.start) (0 + c.span.start + 1 + w.length)
    obtain rfl : c = d := Option.some.inj (Except.ok.inj (hi.read.symm.trans hd))
    exact argument ▸ inner

/-- What stands in a brace group of a plain text is plain and ends unescaped. -/
theorem plain_group {i n : Nat} (h : Plain Mark.commandNames t)
    (group : braceLength? 0 (t.drop i) = some n) :
    Plain Mark.commandNames (t.slice ⟨i, i + n⟩) ∧ escapes (t.slice ⟨i, i + n⟩) = false := by
  rw [slice_eq_take]
  refine ⟨?_, escapes_braceLength? group⟩
  obtain ⟨lt, close⟩ := List.getElem?_eq_some_iff.1 (getElem?_braceLength? group)
  have parts : (t.drop i).take n ++ '}' :: (t.drop i).drop (n + 1) = t.drop i := by
    rw [← close, ← List.drop_eq_getElem_cons lt, List.take_append_drop]
  refine Plain.of_group (t := (t.drop i).drop (n + 1)) Mark.letters ?_ ?_
  · rw [parts]
    exact h.of_isSuffix (List.drop_suffix i t)
  · rw [parts, group, List.length_take, Nat.min_eq_left lt.le]

theorem escapes_take_stop {names : List Text} (hc : c ∈ (all t names).found) :
    escapes (t.take c.span.stop) = false := by
  obtain ⟨i, w, r, hi, -⟩ := exists_standsAt hc
  obtain ⟨n, lt, stop, brace, -⟩ := hi.stop
  have := escapes_take_succ brace (by decide)
  rwa [show n - 1 + 1 = c.span.stop by omega] at this

theorem closed_of_mem_all (h : Plain Mark.commandNames t)
    (hc : c ∈ (all t Reference.commandNames).found) : Closed (t.slice c.span) [] := by
  obtain ⟨i, w, r, hi, -⟩ := exists_standsAt hc
  obtain ⟨n, -, stop, brace, le⟩ := hi.stop
  have start := hi.start
  have rest : Plain Mark.commandNames ('\\' :: (w ++ r)) := by
    rw [← hi.text]
    exact h.of_isSuffix (List.drop_suffix i t)
  have plain := Plain.argument (s := []) rest (List.mem_cons_of_mem _ hi.mem) hi.word.ends
  rcases read_plain plain with none | ⟨k, a, chars, -, some⟩
  · simpa [none] using hi.read
  · obtain ⟨d, hd, hk, -⟩ := some w (0 + i) (0 + i + 1 + w.length)
    obtain rfl : c = d := Option.some.inj (Except.ok.inj (hi.read.symm.trans hd))
    have slice : t.slice c.span = '\\' :: (w ++ r.take k) := by
      rw [show c.span = ⟨i, i + (w.length + k + 1)⟩ by
          rw [show c.span = ⟨c.span.start, c.span.stop⟩ from rfl, start, hk]
          congr 1 <;> omega,
        slice_eq_take, hi.text, List.take_succ_cons, List.take_length_add_append]
    have last : (t.slice c.span).getLast? = .some '}' := by
      have length : (t.slice c.span).length = c.span.stop - c.span.start := by
        rw [length_slice]
        omega
      rw [List.getLast?_eq_getElem?, length, Text.slice, List.getElem?_drop, List.getElem?_take_of_lt,
        ← brace]
      · congr 1
        omega
      · omega
    have word : Word w (r.take k) := hi.word.take k
    have ref : w ≠ "label" := fun e => absurd (e ▸ hi.mem) (by decide)
    refine ⟨⟨?_, by rw [slice, ids_of_word word ref chars]⟩, by rw [slice]; rfl,
      ⟨'}', last, by decide, by decide⟩⟩
    have parts : '\\' :: (w ++ r) = t.slice c.span ++ r.drop k := by
      rw [slice, List.cons_append, List.append_assoc, List.take_append_drop]
    exact Plain.of_append (parts ▸ rest) (.inl last)

end Command

end FloatFlattening
