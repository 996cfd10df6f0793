import FloatFlattening.Proofs.Markup.Balanced
import FloatFlattening.Proofs.Markup.Found
/-!
The search for commands against a grammar of their uses. Every command found is a use as the grammar has
it; and each use is found, or stands in a use that is found, or comes after what ended the search.
-/

namespace FloatFlattening

/-- What may stand between the name of a command and its argument: blanks, and bracket groups that hold
the given texts. -/
inductive Options : List Text → Text → Prop
  | nil {u : Text} : (∀ c ∈ u, Text.isAsciiBlank c) → Options [] u
  | cons {groups : List Text} {u g v : Text} : (∀ c ∈ u, Text.isAsciiBlank c) → Bracketed g → Options groups v →
    Options (g :: groups) (u ++ '[' :: (g ++ ']' :: v))

/-- A group that is opened and never closed. -/
inductive Unclosed : Defect → Text → Prop
  | bracket {t : Text} : (∀ s r, Bracketed s → t ≠ s ++ ']' :: r) → Unclosed .openBracket ('[' :: t)
  | brace {t : Text} : (∀ s r, Braced s → t ≠ s ++ '}' :: r) → Unclosed .openBrace ('{' :: t)

variable {construct t u r : Text} {groups : List Text} {c c' c₀ : Cursor} {n : Nat} {m : Malformed}

theorem Options.head?_ne_star (h : Options groups u) (t : Text) : (u ++ '{' :: t).head? ≠ some '*' := by
  have blank {u : Text} (hu : ∀ x ∈ u, Text.isAsciiBlank x) (c : Char) (hc : c ≠ '*') (t : Text) :
      (u ++ c :: t).head? ≠ some '*' := by
    cases u with
    | nil => simpa using hc
    | cons x u =>
      rintro e
      obtain rfl : x = '*' := by simpa using e
      exact absurd (hu _ List.mem_cons_self) (by decide)
  cases h with
  | nil hu => exact blank hu '{' (by decide) t
  | cons hu _ _ =>
    rw [List.append_assoc]
    exact blank hu '[' (by decide) _

/-- The star of a starred command. -/
def star (starred : Bool) : Text := if starred then ['*'] else []

namespace Cursor

theorem skip_of_rest (h : c.rest = u ++ r) : c.skip u.length = ⟨c.pos + u.length, r⟩ := by
  rw [skip, h, List.drop_left]

theorem exists_blanks (c : Cursor) :
    ∃ u, (∀ x ∈ u, Text.isAsciiBlank x) ∧ c.rest = u ++ c.skipBlanks.rest ∧ c.skipBlanks.pos = c.pos + u.length :=
  ⟨_, fun _ hx => List.mem_takeWhile_imp hx, by rw [rest_skipBlanks, List.takeWhile_append_dropWhile], rfl⟩

theorem isAsciiBlank_skipBlanks (c : Cursor) : ∀ x ∈ c.skipBlanks.rest.head?, Text.isAsciiBlank x = false := by
  intro x hx
  have := List.head?_dropWhile_not Text.isAsciiBlank c.rest
  rwa [← rest_skipBlanks, Option.mem_def.1 hx] at this

theorem skipBlanks_eq_self (h : ∀ x ∈ c.rest.head?, Text.isAsciiBlank x = false) : c.skipBlanks = c := by
  have : c.rest.takeWhile Text.isAsciiBlank = [] := by
    rw [List.takeWhile_eq_nil_iff]
    intro lt blank
    simp [h _ (List.head?_eq_getElem? ▸ List.getElem?_eq_getElem lt)] at blank
  rw [skipBlanks, this]
  rfl

theorem skipBlanks_of_rest (h : c.rest = u ++ r) (blank : ∀ x ∈ u, Text.isAsciiBlank x)
    (ends : ∀ x ∈ r.head?, Text.isAsciiBlank x = false) : c.skipBlanks = c.skip u.length := by
  have : c.rest.takeWhile Text.isAsciiBlank = u := by
    rw [h, List.takeWhile_append_of_pos blank]
    cases r with
    | nil => simp
    | cons x r => simp [ends x rfl]
  rw [skipBlanks, this]

/-- The star that a cursor skips. -/
theorem skipStar_append (c : Cursor) :
    c.rest = star (c.rest.head? = some '*') ++ c.skipStar.rest ∧
      c.skipStar = c.skip (star (c.rest.head? = some '*')).length := by
  rw [skipStar]
  split
  next star =>
    obtain ⟨t, ht⟩ := List.head?_eq_some_iff.1 star
    simp [FloatFlattening.star, ht]
  next none => simp [star, none]

end Cursor

namespace Arguments

theorem brackets_of_options (h : Options groups u) (hc : c.rest = u ++ '{' :: t) (construct : Text) :
    brackets construct c.skipBlanks = .ok (groups, c.skip u.length) := by
  induction h generalizing c with
  | nil blank =>
    rw [Cursor.skipBlanks_of_rest hc blank (by simp [Text.isAsciiBlank])]
    exact brackets_of_head?_ne (by simp [hc]) construct
  | @cons groups u g v blank group more ih =>
    have start : c.rest = u ++ '[' :: (g ++ ']' :: (v ++ '{' :: t)) := by simpa using hc
    have length : bracketLength? 0 (g ++ ']' :: (v ++ '{' :: t)) = some g.length :=
      bracketLength?_eq_some_iff.2 ⟨g, _, group, rfl, rfl⟩
    have rest : (c.skip (u.length + (g.length + 2))).rest = v ++ '{' :: t := by
      rw [Cursor.rest_skip, start, List.drop_length_add_append, List.drop_succ_cons, ← List.drop_drop,
        List.drop_left]
      rfl
    rw [Cursor.skipBlanks_of_rest start blank (by simp [Text.isAsciiBlank]),
      brackets_group (by rw [Cursor.rest_skip, start, List.drop_left]) length, Cursor.skip_skip, ih rest]
    simp only [Except.map, Cursor.skip_skip, List.length_append, List.length_cons, List.take_left]
    congr 3
    omega

/-- What bracket groups are read from, and where they end or which of them never does. -/
theorem exists_options (construct : Text) (c : Cursor) : ∃ groups u r, c.rest = u ++ r ∧ Options groups u ∧
    (((∀ x ∈ r.head?, Text.isAsciiBlank x = false) ∧ brackets construct c.skipBlanks = .ok (groups, c.skip u.length)) ∨
      ∃ t, r = '[' :: t ∧ bracketLength? 0 t = none ∧
        brackets construct c.skipBlanks = .error ⟨construct, c.pos + u.length, .openBracket⟩) := by
  induction start : c.skipBlanks using brackets_induction generalizing c with
  | unclosed c₀ t ht unclosed =>
    subst start
    obtain ⟨u, blank, rest, pos⟩ := c.exists_blanks
    refine ⟨[], u, _, rest, .nil blank, .inr ⟨t, ht, unclosed, ?_⟩⟩
    rw [brackets_unclosed ht unclosed, pos]
  | group c₀ t n ht length ih =>
    subst start
    obtain ⟨u, blank, rest, -⟩ := c.exists_blanks
    obtain ⟨g, r, group, rfl, rfl⟩ := bracketLength?_eq_some_iff.1 length
    rw [ht] at rest
    have skip : c.skipBlanks = c.skip u.length :=
      Cursor.skipBlanks_of_rest rest blank (by simp [Text.isAsciiBlank])
    have next : (c.skipBlanks.skip (g.length + 2)).rest = r := by
      rw [Cursor.rest_skip, ht, List.drop_succ_cons, ← List.drop_drop, List.drop_left]
      rfl
    obtain ⟨groups, v, r', rest', options, outcome⟩ := ih _ rfl
    rw [next] at rest'
    subst rest'
    refine ⟨g :: groups, u ++ '[' :: (g ++ ']' :: v), r', by simp [rest], .cons blank group options, ?_⟩
    rw [brackets_group ht length]
    rcases outcome with ⟨head, ok⟩ | ⟨t, opening, unclosed, error⟩
    · refine .inl ⟨head, ?_⟩
      rw [ok, skip]
      simp only [Except.map, Cursor.skip_skip, List.length_append, List.length_cons, List.take_left]
      congr 3
      omega
    · refine .inr ⟨t, opening, unclosed, ?_⟩
      rw [error, skip]
      simp only [Except.map, Cursor.pos_skip, List.length_append, List.length_cons]
      congr 2
      omega
  | done c₀ head =>
    subst start
    obtain ⟨u, blank, rest, pos⟩ := c.exists_blanks
    refine ⟨[], u, _, rest, .nil blank, .inl ⟨c.isAsciiBlank_skipBlanks, ?_⟩⟩
    rw [brackets_of_head?_ne head, Cursor.skip_of_rest rest, ← pos]

/-- Where the one brace group of a command opens, by the grammar. -/
theorem opens_iff : Opens construct c groups c' t n ↔
    ∃ u, c.rest = u ++ '{' :: t ∧ Options groups u ∧ c' = c.skip u.length ∧ braceLength? 0 t = some n := by
  constructor
  · rintro ⟨⟨c₁, read, rfl⟩, brace, length⟩
    obtain ⟨groups', u, r, rest, options, ⟨head, ok⟩ | ⟨_, -, -, error⟩⟩ := exists_options construct c
    · obtain ⟨rfl, rfl⟩ := Prod.mk.inj (Except.ok.inj (read.symm.trans ok))
      have here : (c.skip u.length).rest = r := by rw [Cursor.rest_skip, rest, List.drop_left]
      rw [Cursor.skipBlanks_eq_self (here ▸ head)] at brace ⊢
      rw [here] at brace
      exact ⟨u, brace ▸ rest, options, rfl, length⟩
    · simp [read] at error
  · rintro ⟨u, rest, options, rfl, length⟩
    have here : (c.skip u.length).rest = '{' :: t := by rw [Cursor.rest_skip, rest, List.drop_left]
    exact ⟨⟨_, brackets_of_options options rest construct,
      Cursor.skipBlanks_eq_self (by rw [here]; simp [Text.isAsciiBlank])⟩, here, length⟩

/-- A reading fails at a group that is never closed. -/
theorem exists_unclosed (h : read construct 1 c = .error m) : ∃ groups u r, c.rest = u ++ r ∧ Options groups u ∧
    m.construct = construct ∧ m.pos = c.pos + u.length ∧ Unclosed m.defect r := by
  obtain ⟨groups, u, r, rest, options, ⟨head, ok⟩ | ⟨t, rfl, unclosed, error⟩⟩ := exists_options construct c
  · have here : (c.skip u.length).rest = r := by rw [Cursor.rest_skip, rest, List.drop_left]
    have stays := Cursor.skipBlanks_eq_self (here ▸ head)
    have failed : braces construct 1 (c.skip u.length) = .error m := by
      rwa [read_eq ok, Except.map_eq_error_iff] at h
    by_cases brace : r.head? = some '{'
    · obtain ⟨t, rfl⟩ := List.head?_eq_some_iff.1 brace
      cases length : braceLength? 0 t with
      | none =>
        rw [braces_one_unclosed (t := t) (by rw [stays, here]) length, stays] at failed
        obtain rfl := Except.error.inj failed
        exact ⟨groups, u, _, rest, options, rfl, rfl, .brace (braceLength?_eq_none_iff.1 length)⟩
      | some n =>
        rw [braces_one_group (t := t) (by rw [stays, here]) length] at failed
        cases failed
    · rw [braces_one_of_head?_ne (by rwa [stays, here])] at failed
      cases failed
  · rw [read_eq_error error] at h
    obtain rfl := Except.error.inj h
    exact ⟨groups, u, _, rest, options, rfl, rfl, .bracket (bracketLength?_eq_none_iff.1 unclosed)⟩

end Arguments

namespace Command

variable {names : List Text} {pos i k : Nat} {before options after group w : Text} {d : Command}

/-- How a command is written, with what stands between its name and its argument. -/
def written (d : Command) (options : Text) : Text :=
  '\\' :: (d.name ++ (star d.starred ++ (options ++ '{' :: (d.argument ++ ['}']))))

/-- A use of a command: an unescaped control word, the longest that can be read there, perhaps a star, bracket
groups, and an argument in braces that pair. -/
structure Used (t : Text) (d : Command) (before options after : Text) : Prop where
  text : t = before ++ (d.written options ++ after)
  unescaped : Text.escapes before = false
  named : d.name ≠ []
  word : (t.drop (before.length + 1)).takeWhile Char.isAlpha = d.name
  groups : Options d.optional options
  argument : Braced d.argument
  span : d.span = ⟨before.length, before.length + (d.written options).length⟩
  argumentSpan : d.argumentSpan = ⟨d.span.stop - 1 - d.argument.length, d.span.stop - 1⟩

/-- The use of a listed command, one of whose groups is never closed. -/
structure Broken (t : Text) (names : List Text) (m : Malformed) (before name options group : Text) : Prop where
  text : ∃ star ∈ [[], ['*']], t = before ++ '\\' :: (name ++ (star ++ (options ++ group)))
  unescaped : Text.escapes before = false
  named : name ≠ []
  word : (t.drop (before.length + 1)).takeWhile Char.isAlpha = name
  mem : name ∈ names
  construct : m.construct = '\\' :: name
  groups : ∃ groups, Options groups options
  pos : m.pos + group.length = t.length
  unclosed : Unclosed m.defect group

theorem word_of_takeWhile {r : Text} (named : w ≠ []) (h : (w ++ r).takeWhile Char.isAlpha = w) : Word w r := by
  have letters : ∀ c ∈ w, c.isAlpha := fun c hc => List.mem_takeWhile_imp (h ▸ hc)
  refine ⟨named, letters, fun c hc => ?_⟩
  obtain ⟨r, rfl⟩ := List.head?_eq_some_iff.1 hc
  rw [List.takeWhile_append_of_pos letters, List.takeWhile_cons] at h
  by_contra letter
  simp [letter] at h

/-- A command that stands in a text is used there. -/
theorem StandsAt.used {r : Text} (h : StandsAt names 0 t d i w r) (unescaped : Text.escapes (t.take i) = false) :
    ∃ options after, Used t d (t.take i) options after := by
  have read := h.read
  rw [Nat.zero_add] at read
  obtain ⟨groups, c', t', n, opens, rfl⟩ := afterName?_eq_some_iff.1 read
  obtain ⟨options, rest, between, rfl, length⟩ := Arguments.opens_iff.1 opens
  obtain ⟨argument, after, braced, rfl, rfl⟩ := braceLength?_eq_some_iff.1 length
  obtain ⟨text, skip⟩ := Cursor.skipStar_append ⟨i + 1 + w.length, r⟩
  rw [rest] at text
  dsimp only at text skip
  have inside : i < t.length := by
    have := congrArg List.length h.text
    simp at this
    omega
  have taken : (t.take i).length = i := List.length_take_of_le (Nat.le_of_lt inside)
  refine ⟨options, after, ?_, unescaped, h.word.ne_nil, ?_, between, ?_, ?_, ?_⟩
  · refine (List.take_append_drop i t).symm.trans (congrArg (t.take i ++ ·) (h.text.trans ?_))
    conv_lhs => rw [text]
    simp [written, ofGroup]
  · rw [taken, ← List.drop_drop, h.text, List.drop_succ_cons, List.drop_zero]
    exact h.word.takeWhile
  · simpa [ofGroup] using braced
  · simp only [ofGroup, taken, skip, Cursor.pos_skip, written, List.length_cons, List.length_append,
      List.take_left, List.length_nil]
    congr 1
    omega
  · simp only [ofGroup, List.take_left]
    congr 1 <;> omega

/-- A command that is used in a text stands there. -/
theorem Used.standsAt (h : Used t d before options after) (mem : d.name ∈ names) :
    StandsAt names 0 t d before.length d.name
      (star d.starred ++ (options ++ '{' :: (d.argument ++ '}' :: after))) := by
  have rest : t.drop before.length =
      '\\' :: (d.name ++ (star d.starred ++ (options ++ '{' :: (d.argument ++ '}' :: after)))) := by
    rw [h.text, List.drop_left]
    simp [written]
  have word : Word d.name (star d.starred ++ (options ++ '{' :: (d.argument ++ '}' :: after))) := by
    have longest := h.word
    rw [← List.drop_drop, rest, List.drop_succ_cons, List.drop_zero] at longest
    exact word_of_takeWhile h.named longest
  refine ⟨by simp [h.span], rest, word, mem, ?_⟩
  generalize hr : star d.starred ++ (options ++ '{' :: (d.argument ++ '}' :: after)) = r at *
  have starred : decide (r.head? = some '*') = d.starred := by
    rw [← hr]
    cases on : d.starred with
    | true => simp [star]
    | false => simpa [star] using h.groups.head?_ne_star (d.argument ++ '}' :: after)
  obtain ⟨text, skip⟩ := Cursor.skipStar_append ⟨0 + before.length + 1 + d.name.length, r⟩
  simp only [starred] at text skip
  have past := List.append_cancel_left (hr.trans text)
  refine afterName?_eq_some_iff.2 ⟨d.optional, _, _, _, Arguments.opens_iff.2
    ⟨options, past.symm, h.groups, rfl, braceLength?_eq_some_iff.2 ⟨_, _, h.argument, rfl, rfl⟩⟩, ?_⟩
  calc
    d = ⟨d.name, d.starred, d.span, d.optional, d.argument, d.argumentSpan⟩ := rfl
    _ = ofGroup d.name (0 + before.length) _ d.optional _ _ _ := by
      rw [h.argumentSpan, h.span]
      simp only [ofGroup, skip, starred, Cursor.pos_skip, written, List.length_cons, List.length_append,
        List.take_left, List.length_nil]
      congr 2 <;> omega

/-- Where a search ends early: a listed command at `k` that cannot be read. -/
structure FailsAt (names : List Text) (pos : Nat) (t : Text) (m : Malformed) (k : Nat) (w r : Text) : Prop where
  text : t.drop k = '\\' :: (w ++ r)
  unescaped : Text.escapes (t.take k) = false
  word : Word w r
  mem : w ∈ names
  read : afterName? w (pos + k) ⟨pos + k + 1 + w.length, r⟩ = .error m

/-- A search reaches the command at `i`, or passes it by within a command, or ends before it. -/
def Reaches (names : List Text) (pos : Nat) (t : Text) (d : Command) (i : Nat) : Prop :=
  d ∈ (scan names pos t).found ∨
    (∃ e ∈ (scan names pos t).found, e.span.start < pos + i ∧ pos + i < e.span.stop) ∨
    ∃ m, (scan names pos t).stopped = some m ∧ ∃ k ≤ i, ∃ w r, FailsAt names pos t m k w r

theorem FailsAt.drop {r : Text} {j : Nat} (h : FailsAt names (pos + j) (t.drop j) m k w r)
    (unescaped : Text.escapes (t.take j) = false) : FailsAt names pos t m (j + k) w r where
  text := by rw [← List.drop_drop, h.text]
  unescaped := by rw [← Text.escapes_drop_take unescaped, h.unescaped]
  word := h.word
  mem := h.mem
  read := by simpa [Nat.add_assoc] using h.read

/-- A search that goes on past `j` reaches what it reaches from there. -/
theorem Reaches.drop {j : Nat} (h : Reaches names (pos + j) (t.drop j) d i)
    (unescaped : Text.escapes (t.take j) = false)
    (found : ∀ e ∈ (scan names (pos + j) (t.drop j)).found, e ∈ (scan names pos t).found)
    (stopped : (scan names pos t).stopped = (scan names (pos + j) (t.drop j)).stopped) :
    Reaches names pos t d (j + i) := by
  rw [Reaches, stopped, ← Nat.add_assoc]
  refine h.imp (found d) (Or.imp (fun ⟨e, he, within⟩ => ⟨e, found e he, within⟩) ?_)
  rintro ⟨m, hm, k, le, w, r, fails⟩
  exact ⟨m, hm, j + k, by omega, w, r, fails.drop unescaped⟩

theorem StandsAt.take {r : Text} {j : Nat} (h : StandsAt names pos t d (j + i) w r) :
    StandsAt names (pos + j) (t.drop j) d i w r where
  start := by rw [h.start, Nat.add_assoc]
  text := by rw [List.drop_drop, h.text]
  word := h.word
  mem := h.mem
  read := by simpa [Nat.add_assoc] using h.read

/-- A use past what a step of the search reads is reached if the search from there reaches it. -/
theorem StandsAt.reaches_of_drop {r : Text} {j : Nat} (h : StandsAt names pos t d i w r)
    (free : Text.escapes (t.take i) = false) (le : j ≤ i) (unescaped : Text.escapes (t.take j) = false)
    (ih : ∀ {i}, StandsAt names (pos + j) (t.drop j) d i w r → Text.escapes ((t.drop j).take i) = false →
      Reaches names (pos + j) (t.drop j) d i)
    (found : ∀ e ∈ (scan names (pos + j) (t.drop j)).found, e ∈ (scan names pos t).found)
    (stopped : (scan names pos t).stopped = (scan names (pos + j) (t.drop j)).stopped) :
    Reaches names pos t d i := by
  obtain ⟨i, rfl⟩ := Nat.exists_eq_add_of_le le
  exact (ih h.take (by rw [Text.escapes_drop_take unescaped, free])).drop unescaped found stopped

/-- The search reaches every use of a listed command. -/
theorem StandsAt.reaches {r : Text} (h : StandsAt names pos t d i w r) (free : Text.escapes (t.take i) = false) :
    Reaches names pos t d i := by
  induction pos, t using scan_induction names generalizing i with
  | nil pos => simpa using h.text
  | lone pos =>
    have text := h.text
    cases i with
    | zero => simp [h.word.ne_nil] at text
    | succ i => simp at text
  | other pos x t hx ih =>
    cases i with
    | zero => exact absurd (List.cons.inj h.text).1 hx
    | succ i =>
      exact h.reaches_of_drop free (Nat.le_add_left 1 i) (by simp [Text.escapes_cons hx]) ih (by simp [scan_other hx])
        (by simp [scan_other hx])
  | symbol pos x t hx ih =>
    match i with
    | 0 =>
      obtain ⟨y, w, rfl⟩ := List.exists_cons_of_ne_nil h.word.ne_nil
      obtain ⟨rfl, -⟩ := List.cons.inj (List.cons.inj h.text).2
      simp [h.word.letters x List.mem_cons_self] at hx
    | 1 => simp [Text.escapes, Text.escapeStep] at free
    | i + 2 =>
      exact h.reaches_of_drop free (Nat.le_add_left 2 i) (by simp) ih (by simp [scan_symbol hx]) (by simp [scan_symbol hx])
  | mention pos w' r' hw hn ih =>
    rcases Nat.eq_zero_or_pos i with rfl | hi
    · obtain ⟨rfl, rfl⟩ := hw.inj h.word (List.cons.inj h.text).2
      have := h.read.symm.trans (hn h.mem)
      simp at this
    · have rest : ('\\' :: (w' ++ r')).drop (1 + w'.length) = r' := Word.drop 0
      refine h.reaches_of_drop free (hw.le_of_drop hi h.text) (by simp [Nat.add_comm 1, hw.escapes]) ?_ ?_ ?_
      all_goals rw [rest, ← Nat.add_assoc]
      · exact ih
      · simp [scan_mention hw hn]
      · rw [scan_mention hw hn]
  | stopped pos w' r' m hw hn hm =>
    exact .inr (.inr ⟨m, by rw [scan_stopped hw hn hm]; rfl, 0, Nat.zero_le i, w', r', rfl, rfl, hw, hn, hm⟩)
  | command pos w' r' c k hw hn ha start stop close ih =>
    have scan := scan_command hw hn ha stop
    have ends : pos + (1 + w'.length + (k + 1)) = c.span.stop := by omega
    rcases Nat.eq_zero_or_pos i with rfl | hi
    · obtain ⟨rfl, rfl⟩ := hw.inj h.word (List.cons.inj h.text).2
      obtain rfl : c = d := by simpa [ha] using h.read
      exact .inl (by simp [scan])
    · rcases Nat.lt_or_ge i (1 + w'.length + (k + 1)) with lt | le
      · exact .inr (.inl ⟨c, by simp [scan], by omega, by omega⟩)
      · have brace : ('\\' :: (w' ++ r'))[1 + w'.length + k]? = some '}' := by
          rw [← List.head?_drop, Word.drop, List.head?_drop, close]
        refine h.reaches_of_drop free le (Text.escapes_take_succ brace (by decide)) ?_ ?_ ?_
        all_goals rw [Word.drop, ends]
        · exact ih
        · exact fun e he => by simp [scan, he]
        · simp [scan]

/-- What ends a search is the use of a listed command that the grammar does not allow. -/
theorem FailsAt.broken {r : Text} (h : FailsAt names 0 t m k w r) :
    ∃ options group, Broken t names m (t.take k) w options group := by
  obtain ⟨text, skip⟩ := Cursor.skipStar_append ⟨0 + k + 1 + w.length, r⟩
  have failed : Arguments.read ('\\' :: w) 1 (Cursor.skipStar ⟨0 + k + 1 + w.length, r⟩) = .error m := by
    have read := h.read
    rwa [afterName?_eq, Except.map_eq_error_iff] at read
  obtain ⟨groups, options, group, rest, between, construct, pos, unclosed⟩ := Arguments.exists_unclosed failed
  rw [rest] at text
  dsimp only at text skip
  have whole : t = t.take k ++ '\\' :: (w ++ (star (r.head? = some '*') ++ (options ++ group))) := by
    refine (List.take_append_drop k t).symm.trans (congrArg (t.take k ++ ·) (h.text.trans ?_))
    conv_lhs => rw [text]
  have inside : k < t.length := by
    have := congrArg List.length h.text
    simp at this
    omega
  have taken : (t.take k).length = k := List.length_take_of_le (Nat.le_of_lt inside)
  refine ⟨options, group, ⟨_, ?_, whole⟩, h.unescaped, h.word.ne_nil, ?_, h.mem, construct, ⟨_, between⟩, ?_, unclosed⟩
  · cases decide (r.head? = some '*') <;> simp [star]
  · rw [taken, ← List.drop_drop, h.text, List.drop_succ_cons, List.drop_zero]
    exact h.word.takeWhile
  · have length := congrArg List.length whole
    simp only [List.length_append, List.length_cons, taken] at length
    rw [pos, skip, Cursor.pos_skip]
    dsimp only
    omega

/-- A search ends inside the text, or at its end. -/
theorem pos_le_of_stopped (h : (scan names pos t).stopped = some m) : m.pos ≤ pos + t.length := by
  induction pos, t using scan_induction names with
  | nil | lone => simp [Scan.done] at h
  | other pos x t hx ih =>
    rw [scan_other hx] at h
    have := ih h
    simp only [List.length_cons]
    omega
  | symbol pos x t hx ih =>
    rw [scan_symbol hx] at h
    have := ih h
    simp only [List.length_cons]
    omega
  | mention pos w r hw hn ih =>
    rw [scan_mention hw hn] at h
    have := ih h
    simp only [List.length_cons, List.length_append]
    omega
  | stopped pos w r m' hw hn hm =>
    rw [scan_stopped hw hn hm] at h
    obtain rfl : m' = m := Option.some.inj h
    rw [afterName?_eq, Except.map_eq_error_iff] at hm
    obtain ⟨groups, u, v, rest, -, -, stops, -⟩ := Arguments.exists_unclosed hm
    obtain ⟨text, skip⟩ := Cursor.skipStar_append ⟨pos + 1 + w.length, r⟩
    rw [stops, skip, Cursor.pos_skip]
    have := congrArg List.length text
    simp only [rest, List.length_cons, List.length_append] at this ⊢
    omega
  | command pos w r c k hw hn ha start stop close ih =>
    rw [scan_command hw hn ha stop, Scan.stopped_cons] at h
    have := ih h
    have := (List.getElem?_eq_some_iff.1 close).1
    simp only [List.length_cons, List.length_append, List.length_drop] at *
    omega

/-- The search for commands finds uses of the listed commands alone, one after the other; and it finds each
use, unless that stands in one that is found, or comes after one that ends the search. -/
theorem all_exact (t : Text) (names : List Text) :
    ((all t names).found.Pairwise fun c d => c.span.stop ≤ d.span.start) ∧
      (∀ c ∈ (all t names).found, c.name ∈ names ∧ ∃ before options after, Used t c before options after) ∧
      ∀ c before options after, c.name ∈ names → Used t c before options after →
        c ∈ (all t names).found ∨
          (∃ d ∈ (all t names).found, d.span.start < c.span.start ∧ c.span.start < d.span.stop) ∨
          ∃ m, (all t names).stopped = some m ∧ ∃ before' name options' group,
            before'.length ≤ c.span.start ∧ Broken t names m before' name options' group := by
  refine ⟨pairwise_found, fun c hc => ?_, fun c before options after mem used => ?_⟩
  · obtain ⟨i, w, r, stands, unescaped⟩ := exists_standsAt hc
    obtain ⟨options, after, used⟩ := stands.used unescaped
    have name := (span_of_afterName? stands.read).1
    exact ⟨name ▸ stands.mem, _, _, _, used⟩
  · have text : t.take before.length = before := by rw [used.text, List.take_left]
    have start : c.span.start = before.length := by rw [used.span]
    rw [start]
    refine ((used.standsAt mem).reaches (by rw [text, used.unescaped])).imp id (Or.imp ?_ ?_)
    · simp [all]
    · rintro ⟨m, stopped, k, le, w, r, fails⟩
      obtain ⟨options, group, broken⟩ := fails.broken
      exact ⟨m, stopped, _, w, options, group, Nat.le_trans (List.length_take_le _ _) le, broken⟩

end Command

end FloatFlattening
