import FloatFlattening.Proofs.Markup.Mark
import FloatFlattening.Proofs.Markup.Plain
/-!
The labels that a plain text sets. They are those of its parts, and each part's are found in the
whole where the part stands.
-/

namespace FloatFlattening

theorem Cursor.skipBlanks_skipBlanks (c : Cursor) : c.skipBlanks.skipBlanks = c.skipBlanks := by
  have none : c.skipBlanks.rest.takeWhile Text.isAsciiBlank = [] := by
    rw [rest_skipBlanks]
    have head := List.head?_dropWhile_not Text.isAsciiBlank c.rest
    cases e : c.rest.dropWhile Text.isAsciiBlank with
    | nil => rfl
    | cons x r => exact List.takeWhile_cons_of_neg (by simp_all)
  conv_lhs => rw [skipBlanks, none, List.length_nil, skip_zero]

namespace Command

open Arguments Text

variable {names names' : List Text} {pos : Nat} {r s t : Text}

/-- A plain argument is read by every command, and wherever the text stands. -/
theorem read_group {a v : Text} (h : afterStar r = '{' :: (a ++ '}' :: v)) (inner : ∀ c ∈ a, isInner c) :
    ∃ k, (∀ c ∈ r.take k, c ≠ '\\') ∧
      ∀ name start pos, ∃ c, afterName? name start ⟨pos, r⟩ = .ok (some c) ∧
        c.span.stop = pos + k ∧ c.argument = a := by
  obtain ⟨k, le, drop, chars, start_eq⟩ := exists_afterStar r
  refine ⟨k + (a.length + 2), ?_, fun name start pos => ?_⟩
  · intro c hc
    rw [List.take_add, ← drop, h, List.mem_append] at hc
    rcases hc with hc | hc
    · rintro rfl
      exact absurd (chars _ hc) (by decide)
    · rw [List.take_succ_cons, List.take_length_add_append] at hc
      rintro rfl
      have : '\\' ∈ a := by simpa using hc
      exact ne_slash_of_isInner (inner _ this) rfl
  · have opens : Opens ('\\' :: name) (Cursor.skipStar ⟨pos, r⟩) []
        (Cursor.skipStar ⟨pos, r⟩).skipBlanks (a ++ '}' :: v) a.length := by
      refine ⟨⟨_, brackets_of_head?_ne ?_ _, Cursor.skipBlanks_skipBlanks _⟩, ?_,
        braceLength?_inner inner v⟩
      · simp [rest_skipStar, h]
      · rw [rest_skipStar, h]
    refine ⟨_, afterName?_of_opens opens start, ?_, by simp [ofGroup]⟩
    simp only [ofGroup, start_eq]
    omega

theorem read_plain (h : PlainArgument r) :
    (∀ name start pos, afterName? name start ⟨pos, r⟩ = .ok none) ∨
      ∃ k a, (∀ c ∈ r.take k, c ≠ '\\') ∧ (∀ c ∈ a, isInner c) ∧
        ∀ name start pos, ∃ c, afterName? name start ⟨pos, r⟩ = .ok (some c) ∧
          c.span.stop = pos + k ∧ c.argument = a := by
  rcases plainArgument_cases h with ⟨bracket, brace⟩ | ⟨a, v, group, inner⟩
  · refine .inl fun name start pos => ?_
    rw [afterName?_eq_none_iff, read_one_eq_none_iff]
    refine ⟨[], _, brackets_of_head?_ne (by rwa [rest_skipStar]) _, ?_⟩
    rwa [Cursor.skipBlanks_skipBlanks, rest_skipStar]
  · obtain ⟨k, chars, some⟩ := read_group group inner
    exact .inr ⟨k, a, chars, inner, some⟩

theorem stopped_of_plain (h : Plain names t) (sub : names' ⊆ names) :
    (scan names' pos t).stopped = none := by
  induction pos, t using scan_induction names' with
  | nil | lone => simp [Scan.done]
  | other pos x t hx ih =>
    rw [scan_other hx]
    exact ih (h.of_isSuffix (List.suffix_cons x t))
  | symbol pos x t hx ih =>
    rw [scan_symbol hx]
    exact ih (h.of_isSuffix (List.suffix_append ['\\', x] t))
  | mention pos w r hw hn ih =>
    rw [scan_mention hw hn]
    exact ih (h.of_isSuffix (List.suffix_append ('\\' :: w) r))
  | stopped pos w r m hw hn hm =>
    have plain := Plain.argument (s := []) h (sub hn) hw.ends
    rcases read_plain plain with none | ⟨k, a, -, -, some⟩
    · simp [none] at hm
    · obtain ⟨c, hc, -⟩ := some w pos (pos + 1 + w.length)
      simp [hc] at hm
  | command pos w r d k hw hn ha start stop close ih =>
    rw [scan_command hw hn ha stop, Scan.stopped_cons]
    exact ih (h.of_isSuffix ((List.drop_suffix _ r).trans (List.suffix_append ('\\' :: w) r)))

/-- What a search of a plain text finds does not depend on where the text begins. -/
theorem arguments_of_plain (h : Plain names t) (sub : names' ⊆ names) (pos' : Nat) :
    (scan names' pos t).found.map argument = (scan names' pos' t).found.map argument := by
  induction pos, t using scan_induction names' generalizing pos' with
  | nil | lone => simp
  | other pos x t hx ih =>
    rw [scan_other hx, scan_other hx]
    exact ih (h.of_isSuffix (List.suffix_cons x t)) _
  | symbol pos x t hx ih =>
    rw [scan_symbol hx, scan_symbol hx]
    exact ih (h.of_isSuffix (List.suffix_append ['\\', x] t)) _
  | mention pos w r hw hn ih =>
    have later := ih (h.of_isSuffix (List.suffix_append ('\\' :: w) r))
    by_cases mem : w ∈ names'
    · have plain := Plain.argument (s := []) h (sub mem) hw.ends
      rcases read_plain plain with none | ⟨k, a, -, -, some⟩
      · rw [scan_mention hw hn, scan_mention hw fun _ => none _ _ _]
        exact later _
      · obtain ⟨c, hc, -⟩ := some w pos (pos + 1 + w.length)
        simp [hn mem] at hc
    · rw [scan_mention hw hn, scan_mention hw fun hm => absurd hm mem]
      exact later _
  | stopped pos w r m hw hn hm =>
    have : (scan names' pos ('\\' :: (w ++ r))).stopped = none := stopped_of_plain h sub
    simp [scan_stopped hw hn hm, Scan.stop] at this
  | command pos w r d k hw hn ha start stop close ih =>
    have later := ih (h.of_isSuffix ((List.drop_suffix _ r).trans (List.suffix_append ('\\' :: w) r)))
    have plain := Plain.argument (s := []) h (sub hn) hw.ends
    rcases read_plain plain with none | ⟨k', a, -, -, some⟩
    · simp [none] at ha
    · obtain ⟨c, hc, stop', arg⟩ := some w pos (pos + 1 + w.length)
      obtain rfl : d = c := by simpa [ha] using hc
      obtain ⟨c', hc', stop'', arg'⟩ := some w pos' (pos' + 1 + w.length)
      obtain rfl : k' = k + 1 := by omega
      rw [scan_command hw hn ha stop, scan_command hw hn hc' stop'', Scan.found_cons, Scan.found_cons,
        List.map_cons, List.map_cons, later, arg, arg']

theorem found_of_forall_ne (h : ∀ c ∈ t, c ≠ '\\') : (scan names pos t).found = [] := by
  induction t generalizing pos with
  | nil => simp [Scan.done]
  | cons c t ih =>
    rw [scan_other (h c List.mem_cons_self)]
    exact ih fun d hd => h d (List.mem_cons_of_mem c hd)

/-- A command found in a plain text holds no other. -/
theorem not_escape_of_mem_all {c : Command} {i : Nat} (h : Plain names t) (sub : names' ⊆ names)
    (hc : c ∈ (all t names').found) (start : c.span.start < i) (stop : i < c.span.stop) :
    t[i]? ≠ some '\\' := by
  obtain ⟨j, w, r, hj, -⟩ := exists_standsAt hc
  have eq := hj.start
  rw [← List.take_append_drop j t, hj.text] at h
  have plain := h.argument (sub hj.mem) hj.word.ends
  rcases read_plain plain with none | ⟨k, a, chars, -, some⟩
  · simpa [none] using hj.read
  · obtain ⟨d, hd, hk, -⟩ := some w (0 + j) (0 + j + 1 + w.length)
    obtain rfl : c = d := Option.some.inj (Except.ok.inj (hj.read.symm.trans hd))
    obtain ⟨n, rfl⟩ : ∃ n, i = j + (n + 1) := ⟨i - j - 1, by omega⟩
    rw [← List.getElem?_drop, hj.text, List.getElem?_cons_succ]
    intro slash
    by_cases inside : n < w.length
    · rw [List.getElem?_append_left inside] at slash
      exact absurd (hj.word.letters _ (List.mem_of_getElem? slash)) (by decide)
    · rw [List.getElem?_append_right (by omega)] at slash
      have taken : (r.take k)[n - w.length]? = .some '\\' := by
        rw [List.getElem?_take_of_lt (by omega), slash]
      exact chars _ (List.mem_of_getElem? taken) rfl

theorem mem_all_of_standsAt {c : Command} {i : Nat} {w : Text} (h : Plain names t)
    (sub : names' ⊆ names) (hi : StandsAt names' 0 t c i w r) (free : escapes (t.take i) = false) :
    c ∈ (all t names').found := by
  have text : t.take i ++ '\\' :: (w ++ r) = t := by rw [← hi.text, List.take_append_drop]
  have within : i < t.length := by
    have := congrArg List.length hi.text
    simp at this
    omega
  have length : (t.take i).length = i := by simp; omega
  have whole : (scan names' 0 (t.take i ++ '\\' :: (w ++ r))).stopped = none := by
    rw [text]
    exact stopped_of_plain h sub
  obtain ⟨d, hd, holds⟩ := exists_holds whole free hi.word hi.mem (by rw [length, hi.read]; simp)
  rw [text] at hd
  rw [length, Nat.zero_add] at holds
  obtain ⟨j, w', r', hj, -⟩ := exists_standsAt hd
  have start := hj.start
  rw [Nat.zero_add] at start
  rcases Nat.lt_or_eq_of_le holds.1 with lt | eq
  · refine absurd ?_ (not_escape_of_mem_all h sub hd lt holds.2)
    rw [← Nat.add_zero i, ← List.getElem?_drop, hi.text]
    rfl
  · obtain rfl : i = j := by omega
    rwa [hi.unique hj]

/-- What is found in a part of a plain text is found in the whole. -/
theorem mem_all_of_mem_inSpan {c : Command} {b : Span} (h : Plain names t) (sub : names' ⊆ names)
    (free : escapes (t.take b.start) = false) (hc : c ∈ (inSpan t b names').found) :
    c ∈ (all t names').found := by
  obtain ⟨i, w, r, hi, free'⟩ := exists_standsAt hc
  obtain ⟨w', r', stands⟩ := stands_of_mem_inSpan hc
  refine mem_all_of_standsAt h sub stands ?_
  have within : i < (t.slice b).length := by
    have := congrArg List.length hi.text
    simp only [List.length_drop, List.length_cons] at this
    omega
  rw [length_slice] at within
  rw [Text.slice, List.drop_take, List.take_take, Nat.min_eq_left (by omega)] at free'
  rw [hi.start, ← escapes_drop_take free, free']

end Command

namespace Mark

open Text

/-- The commands that set labels and refer to them. -/
def commandNames : List Text := "label" :: Reference.commandNames

theorem letters : ∀ w ∈ commandNames, w ≠ [] ∧ ∀ c ∈ w, c.isAlpha := by decide

theorem label_subset : [("label" : Text)] ⊆ commandNames := List.cons_subset_cons _ (List.nil_subset _)

/-- The labels that a text sets, in order. -/
def ids (t : Text) : List Text := (all t).found.map Mark.id

theorem ids_eq (t : Text) :
    ids t = ((Command.all t ["label"]).found.map Command.argument).map Text.trim := by
  simp [ids, all, ofCommand]

@[simp] theorem ids_nil : ids [] = [] := by simp [ids_eq, Command.all, Scan.done]

theorem mem_all_of_mem_inSpan {t : Text} {m : Mark} {b : Span} (h : Plain commandNames t)
    (free : escapes (t.take b.start) = false) (hm : m ∈ (inSpan t b).found) : m ∈ (all t).found := by
  obtain ⟨c, hc, rfl⟩ := exists_command hm
  exact List.mem_map_of_mem (Command.mem_all_of_mem_inSpan h label_subset free hc)

theorem map_id_inSpan {t : Text} {b : Span} (h : Plain commandNames (t.slice b)) :
    (inSpan t b).found.map Mark.id = ids (t.slice b) := by
  rw [ids_eq, Command.all, Command.arguments_of_plain h label_subset b.start]
  simp [inSpan, Command.inSpan, ofCommand]

end Mark

end FloatFlattening
