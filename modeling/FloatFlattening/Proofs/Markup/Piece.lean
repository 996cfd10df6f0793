import FloatFlattening.Markup.Mark
import FloatFlattening.Proofs.Markup.Command
/-!
Two texts made of corresponding pieces. Where pieces differ only by references, the two read alike:
groups close at corresponding places, and a search for other commands finds corresponding ones.
-/

namespace FloatFlattening

theorem Cursor.skip_group (pos : Nat) (c d : Char) (inner rest : Text) :
    Cursor.skip ⟨pos, c :: (inner ++ d :: rest)⟩ (inner.length + 2) = ⟨pos + (inner.length + 2), rest⟩ := by
  simp [skip]

/-- A piece of a text and the one that stands for it in another. -/
structure Piece where
  old : Text
  new : Text

namespace Piece

def olds (ps : List Piece) : Text := ps.flatMap old

def news (ps : List Piece) : Text := ps.flatMap new

def same (t : Text) : Piece := ⟨t, t⟩

variable {ps qs before rest : List Piece} {p : Piece} {x t u : Text} {pos pos' i i' j j' : Nat} {c : Char}

@[simp] theorem olds_nil : olds [] = [] := rfl

@[simp] theorem news_nil : news [] = [] := rfl

@[simp] theorem olds_cons (p : Piece) (ps : List Piece) : olds (p :: ps) = p.old ++ olds ps := rfl

@[simp] theorem news_cons (p : Piece) (ps : List Piece) : news (p :: ps) = p.new ++ news ps := rfl

@[simp] theorem olds_append (ps qs : List Piece) : olds (ps ++ qs) = olds ps ++ olds qs :=
  List.flatMap_append

@[simp] theorem news_append (ps qs : List Piece) : news (ps ++ qs) = news ps ++ news qs :=
  List.flatMap_append

@[simp] theorem old_same (t : Text) : (same t).old = t := rfl

@[simp] theorem new_same (t : Text) : (same t).new = t := rfl

/-- The characters of a text that stays. -/
def chars (u : Text) : List Piece := u.map fun c => same [c]

@[simp] theorem olds_chars (u : Text) : olds (chars u) = u := by
  induction u with
  | nil => rfl
  | cons c u ih => simpa [chars] using ih

@[simp] theorem news_chars (u : Text) : news (chars u) = u := by
  induction u with
  | nil => rfl
  | cons c u ih => simpa [chars] using ih

/-- Corresponding places of two texts that begin at `pos` and at `pos'`. -/
inductive At (ps : List Piece) (pos pos' : Nat) : Nat → Nat → Prop
  | mk (before rest : List Piece) (eq : ps = before ++ rest) :
      At ps pos pos' (pos + (olds before).length) (pos' + (news before).length)

theorem At.start (ps : List Piece) (pos pos' : Nat) : At ps pos pos' pos pos' := .mk [] ps rfl

theorem At.stop (ps : List Piece) (pos pos' : Nat) :
    At ps pos pos' (pos + (olds ps).length) (pos' + (news ps).length) :=
  .mk ps [] (List.append_nil ps).symm

theorem At.prepend (h : At rest (pos + (olds before).length) (pos' + (news before).length) i i') :
    At (before ++ rest) pos pos' i i' := by
  obtain ⟨inner, rest, rfl⟩ := h
  rw [Nat.add_assoc, Nat.add_assoc, ← List.length_append, ← List.length_append, ← olds_append,
    ← news_append, ← List.append_assoc]
  exact .mk _ _ rfl

theorem At.extend (h : At ps pos pos' i i') (more : List Piece) : At (ps ++ more) pos pos' i i' := by
  obtain ⟨before, rest, rfl⟩ := h
  rw [List.append_assoc]
  exact .mk _ _ rfl

/-- Pieces that are not empty. -/
def Solid (ps : List Piece) : Prop := ∀ p ∈ ps, p.old ≠ [] ∧ p.new ≠ []

theorem Solid.length_eq_zero (h : Solid ps) : (olds ps).length = 0 ↔ (news ps).length = 0 := by
  cases ps with
  | nil => simp
  | cons p ps =>
    have := h p List.mem_cons_self
    simp [this.1, this.2]

/-- Corresponding places come in the same order. -/
theorem At.le_iff (solid : Solid ps) (h : At ps pos pos' i i') (k : At ps pos pos' j j') :
    i ≤ j ↔ i' ≤ j' := by
  obtain ⟨before, rest, rfl⟩ := h
  obtain ⟨before', rest', eq⟩ := k
  rcases List.append_eq_append_iff.1 eq with ⟨between, rfl, rfl⟩ | ⟨between, rfl, rfl⟩
  · simp
  · have between : Solid between := fun p hp => solid p (by simp [hp])
    have := between.length_eq_zero
    simp only [olds_append, news_append, List.length_append]
    omega

/-- Markup that a search for other commands passes over, and that neither opens nor closes a group. -/
structure Passed (x : Text) : Prop where
  head : x.head? = some '\\'
  free : Text.escapes x = false
  brace : ∀ depth t, braceLength? depth (x ++ t) = (braceLength? depth t).map (· + x.length)
  bracket : ∀ depth t, bracketLength? depth (x ++ t) = (bracketLength? depth t).map (· + x.length)
  scan : ∀ names : List Text, (∀ w ∈ Reference.commandNames, w ∉ names) → ∀ pos t,
    Command.scan names pos (x ++ t) = Command.scan names (pos + x.length) t

theorem Passed.ne_nil (h : Passed x) : x ≠ [] := by
  rintro rfl
  cases h.head

theorem Passed.head?_append (h : Passed x) (t : Text) : (x ++ t).head? = some '\\' := by
  rw [List.head?_append_of_ne_nil _ h.ne_nil, h.head]

/-- Pieces that differ by such markup alone. A backslash by itself can only be the last character. -/
inductive Exchanged : List Piece → Prop
  | nil : Exchanged []
  | lone : Exchanged [same ['\\']]
  | char {c : Char} {ps : List Piece} (h : c ≠ '\\') (rest : Exchanged ps) : Exchanged (same [c] :: ps)
  | pair (c : Char) {ps : List Piece} (rest : Exchanged ps) : Exchanged (same ['\\', c] :: ps)
  | markup {x y : Text} {ps : List Piece} (hx : Passed x) (hy : Passed y) (rest : Exchanged ps) :
      Exchanged (⟨x, y⟩ :: ps)

namespace Exchanged

theorem solid (h : Exchanged ps) : Solid ps := by
  induction h with
  | nil => simp [Solid]
  | lone => simp [Solid, same]
  | char | pair => simp_all [Solid, same]
  | markup hx hy => simp_all [Solid, hx.ne_nil, hy.ne_nil]

theorem of_cons (h : Exchanged (p :: ps)) : Exchanged ps := by
  cases h with
  | lone => exact .nil
  | char _ rest | pair _ rest | markup _ _ rest => exact rest

theorem right (h : Exchanged (ps ++ qs)) : Exchanged qs := by
  induction ps with
  | nil => exact h
  | cons p ps ih => exact ih h.of_cons

theorem left (h : Exchanged (ps ++ qs)) : Exchanged ps := by
  induction ps with
  | nil => exact .nil
  | cons p ps ih =>
    rw [List.cons_append] at h
    have ih := ih h.of_cons
    generalize e : ps ++ qs = rs at h
    cases h with
    | lone =>
      obtain ⟨rfl, -⟩ := List.append_eq_nil_iff.1 e
      exact .lone
    | char h => exact .char h ih
    | pair c => exact .pair c ih
    | markup hx hy => exact .markup hx hy ih

theorem append (h : Exchanged ps) (free : Text.escapes (olds ps) = false) (k : Exchanged qs) :
    Exchanged (ps ++ qs) := by
  induction h with
  | nil => exact k
  | lone => simp [same, Text.escapes, Text.escapeStep] at free
  | char h _ ih => exact .char h (ih (by simpa [Text.escapes_cons h] using free))
  | pair c _ ih => exact .pair c (ih (by simpa using free))
  | markup hx hy _ ih => exact .markup hx hy (ih (by simpa [Text.escapes_append hx.free] using free))

theorem escapes_eq (h : Exchanged ps) : Text.escapes (olds ps) = Text.escapes (news ps) := by
  induction h with
  | nil | lone => rfl
  | char h _ ih => simpa [Text.escapes_cons h] using ih
  | pair c _ ih => simpa using ih
  | markup hx hy _ ih => simpa [Text.escapes_append hx.free, Text.escapes_append hy.free] using ih

/-- Any text, as it is. -/
theorem exists_same (t : Text) : ∃ ps, Exchanged ps ∧ olds ps = t ∧ news ps = t := by
  induction n : t.length using Nat.strong_induction_on generalizing t with
  | _ n ih =>
    subst n
    match t with
    | [] => exact ⟨[], .nil, rfl, rfl⟩
    | c :: t =>
      by_cases hc : c = '\\'
      · subst hc
        match t with
        | [] => exact ⟨_, .lone, rfl, rfl⟩
        | c :: t =>
          obtain ⟨ps, h, old, new⟩ := ih t.length (by grind) t rfl
          exact ⟨_, .pair c h, by simp [old], by simp [new]⟩
      · obtain ⟨ps, h, old, new⟩ := ih t.length (by simp) t rfl
        exact ⟨_, .char hc h, by simp [old], by simp [new]⟩

end Exchanged

/-- A character ends what begins with some pieces at corresponding places, or in neither text. -/
inductive Closes (c : Char) (ps : List Piece) : Option Nat → Option Nat → Prop
  | never : Closes c ps none none
  | closed (inner rest : List Piece) (eq : ps = inner ++ same [c] :: rest) :
      Closes c ps (some (olds inner).length) (some (news inner).length)

theorem Closes.prepend {m m' : Option Nat} (h : Closes c ps m m') (before : List Piece) :
    Closes c (before ++ ps) (m.map (· + (olds before).length)) (m'.map (· + (news before).length)) := by
  cases h with
  | never => exact .never
  | closed inner rest eq =>
    have eq : before ++ ps = (before ++ inner) ++ same [c] :: rest := by rw [eq, List.append_assoc]
    simpa [Nat.add_comm] using Closes.closed _ _ eq

theorem Closes.cons {m m' : Option Nat} (h : Closes c ps m m') (p : Piece) :
    Closes c (p :: ps) (m.map (· + p.old.length)) (m'.map (· + p.new.length)) := by
  simpa using h.prepend [p]

namespace Exchanged

theorem closes_brace (h : Exchanged ps) (depth : Nat) :
    Closes '}' ps (braceLength? depth (olds ps)) (braceLength? depth (news ps)) := by
  induction h generalizing depth with
  | nil | lone => simpa [braceLength?] using Closes.never
  | @char c ps hc rest ih =>
    by_cases opens : c = '{'
    · subst opens
      simpa [braceLength?] using (ih (depth + 1)).cons (same ['{'])
    · by_cases closes : c = '}'
      · subst closes
        cases depth with
        | zero => simpa [braceLength?] using Closes.closed [] ps rfl
        | succ depth => simpa [braceLength?] using (ih depth).cons (same ['}'])
      · simpa [braceLength?_other hc opens closes] using (ih depth).cons (same [c])
  | pair c rest ih => simpa [braceLength?] using (ih depth).cons (same ['\\', c])
  | @markup x y ps hx hy rest ih =>
    rw [olds_cons, news_cons, hx.brace, hy.brace]
    exact (ih depth).cons ⟨x, y⟩

theorem closes_bracket (h : Exchanged ps) (depth : Nat) :
    Closes ']' ps (bracketLength? depth (olds ps)) (bracketLength? depth (news ps)) := by
  induction n : ps.length using Nat.strong_induction_on generalizing ps depth with
  | _ n ih =>
    subst n
    cases h with
    | nil | lone => simpa [bracketLength?] using Closes.never
    | @char c ps hc rest =>
      have tail (depth : Nat) := ih ps.length (by simp) rest depth rfl
      by_cases brace : c = '{'
      · subst brace
        have group := rest.closes_brace 0
        generalize hm : braceLength? 0 (olds ps) = m at group
        generalize hm' : braceLength? 0 (news ps) = m' at group
        cases group with
        | never => simpa [bracketLength?, hm, hm'] using Closes.never
        | closed inner after eq =>
          -- The group is skipped, and the pieces past it are fewer.
          have later := ih after.length (by simp [eq]; omega) (eq ▸ rest).right.of_cons depth rfl
          have whole := later.prepend (same ['{'] :: (inner ++ [same ['}']]))
          subst eq
          simp only [olds_append, olds_cons, old_same, List.singleton_append] at hm
          simp only [news_append, news_cons, new_same, List.singleton_append] at hm'
          simpa [bracketLength?_braces hm, bracketLength?_braces hm'] using whole
      · by_cases opens : c = '['
        · subst opens
          simpa [bracketLength?] using (tail (depth + 1)).cons (same ['['])
        · by_cases closes : c = ']'
          · subst closes
            cases depth with
            | zero => simpa [bracketLength?] using Closes.closed [] ps rfl
            | succ depth => simpa [bracketLength?] using (tail depth).cons (same [']'])
          · simpa [bracketLength?_other hc brace opens closes] using (tail depth).cons (same [c])
    | @pair c ps rest =>
      simpa [bracketLength?] using (ih ps.length (by simp) rest depth rfl).cons (same ['\\', c])
    | @markup x y ps hx hy rest =>
      rw [olds_cons, news_cons, hx.bracket, hy.bracket]
      exact (ih ps.length (by simp) rest depth rfl).cons ⟨x, y⟩

/-- The two texts begin with the same characters of a kind. -/
theorem exists_run (h : Exchanged ps) {p : Char → Bool} (slash : p '\\' = false) :
    ∃ u rest, ps = chars u ++ rest ∧ (∀ c ∈ u, p c) ∧ (∀ c ∈ (olds rest).head?, p c = false) ∧
      ∀ c ∈ (news rest).head?, p c = false := by
  induction h with
  | nil => exact ⟨[], [], rfl, by simp, by simp, by simp⟩
  | lone => exact ⟨[], _, rfl, by simp, by simpa using slash, by simpa using slash⟩
  | @char c ps hc rest ih =>
    cases hp : p c with
    | false => exact ⟨[], _, rfl, by simp, by simpa using hp, by simpa using hp⟩
    | true =>
      obtain ⟨u, after, rfl, all, old, new⟩ := ih
      exact ⟨c :: u, after, rfl, by simpa [hp] using all, old, new⟩
  | pair c rest => exact ⟨[], _, rfl, by simp, by simpa using slash, by simpa using slash⟩
  | markup hx hy rest =>
    refine ⟨[], _, rfl, by simp, ?_, ?_⟩
    · rintro c hc
      rw [olds_cons, hx.head?_append] at hc
      exact Option.some.inj hc ▸ slash
    · rintro c hc
      rw [news_cons, hy.head?_append] at hc
      exact Option.some.inj hc ▸ slash

/-- A character begins both texts or neither. -/
theorem head_cases (h : Exchanged ps) (hc : c ≠ '\\') :
    (∃ rest, ps = same [c] :: rest) ∨ (olds ps).head? ≠ some c ∧ (news ps).head? ≠ some c := by
  cases h with
  | nil => exact .inr (by simp)
  | lone | pair => exact .inr (by simp [hc.symm])
  | @char d ps hd rest =>
    by_cases eq : d = c
    · exact .inl ⟨ps, by rw [eq]⟩
    · exact .inr (by simp [eq])
  | markup hx hy rest =>
    rw [olds_cons, news_cons, hx.head?_append, hy.head?_append]
    exact .inr (by simp [hc.symm])

end Exchanged

/-- Corresponding cursors of two texts that begin at `pos` and at `pos'`. -/
inductive Cursors (ps : List Piece) (pos pos' : Nat) : Cursor → Cursor → Prop
  | mk (before rest : List Piece) (eq : ps = before ++ rest) :
      Cursors ps pos pos' ⟨pos + (olds before).length, olds rest⟩
        ⟨pos' + (news before).length, news rest⟩

theorem Cursors.prepend {c c' : Cursor}
    (h : Cursors rest (pos + (olds before).length) (pos' + (news before).length) c c') :
    Cursors (before ++ rest) pos pos' c c' := by
  obtain ⟨inner, rest, rfl⟩ := h
  rw [Nat.add_assoc, Nat.add_assoc, ← List.length_append, ← List.length_append, ← olds_append,
    ← news_append, ← List.append_assoc]
  exact .mk _ _ rfl

namespace Exchanged

theorem cursors_skipBlanks (h : Exchanged ps) (pos pos' : Nat) :
    Cursors ps pos pos' (Cursor.skipBlanks ⟨pos, olds ps⟩) (Cursor.skipBlanks ⟨pos', news ps⟩) := by
  obtain ⟨u, rest, rfl, blank, old, new⟩ := h.exists_run (p := Text.isAsciiBlank) rfl
  have skip {r : Text} (pos : Nat) (next : ∀ c ∈ r.head?, Text.isAsciiBlank c = false) :
      Cursor.skipBlanks ⟨pos, u ++ r⟩ = ⟨pos + u.length, r⟩ := by
    have run : (u ++ r).takeWhile Text.isAsciiBlank = u := by
      rw [List.takeWhile_append_of_pos blank]
      cases r with
      | nil => simp
      | cons c r => simp [next c rfl]
    rw [Cursor.skipBlanks, run, Cursor.skip, List.drop_left]
  have both : Cursors (chars u ++ rest) pos pos' _ _ := .mk (chars u) rest rfl
  rw [olds_append, news_append, olds_chars, news_chars, skip pos old, skip pos' new]
  simpa using both

theorem cursors_skipStar (h : Exchanged ps) (pos pos' : Nat) :
    Cursors ps pos pos' (Cursor.skipStar ⟨pos, olds ps⟩) (Cursor.skipStar ⟨pos', news ps⟩) := by
  rcases h.head_cases (c := '*') (by decide) with ⟨rest, rfl⟩ | ⟨old, new⟩
  · exact .mk [same ['*']] rest rfl
  · rw [Cursor.skipStar, if_neg old, Cursor.skipStar, if_neg new]
    exact .mk [] ps rfl

theorem cursors_brackets (h : Exchanged ps) (construct : Text) (pos pos' : Nat) :
    (∃ m m', Arguments.brackets construct ⟨pos, olds ps⟩ = .error m ∧
      Arguments.brackets construct ⟨pos', news ps⟩ = .error m') ∨
    ∃ groups groups' c c', Cursors ps pos pos' c c' ∧
      Arguments.brackets construct ⟨pos, olds ps⟩ = .ok (groups, c) ∧
      Arguments.brackets construct ⟨pos', news ps⟩ = .ok (groups', c') := by
  induction n : ps.length using Nat.strong_induction_on generalizing ps pos pos' with
  | _ n ih =>
    subst n
    rcases h.head_cases (c := '[') (by decide) with ⟨rest, rfl⟩ | ⟨old, new⟩
    · have group := h.of_cons.closes_bracket 0
      generalize hm : bracketLength? 0 (olds rest) = m at group
      generalize hm' : bracketLength? 0 (news rest) = m' at group
      cases group with
      | never =>
        exact .inl ⟨_, _, Arguments.brackets_unclosed rfl hm construct,
          Arguments.brackets_unclosed rfl hm' construct⟩
      | closed inner after eq =>
        subst eq
        have past : same ['['] :: (inner ++ same [']'] :: after) =
            (same ['['] :: (inner ++ [same [']']])) ++ after := by simp
        rw [past] at h
        have step := Arguments.brackets_group (c := ⟨pos, '[' :: olds (inner ++ same [']'] :: after)⟩)
          rfl hm construct
        have step' := Arguments.brackets_group (c := ⟨pos', '[' :: news (inner ++ same [']'] :: after)⟩)
          rfl hm' construct
        have blanks := h.right.cursors_skipBlanks (pos + ((olds inner).length + 2))
          (pos' + ((news inner).length + 2))
        rw [olds_append, olds_cons, old_same, List.singleton_append, Cursor.skip_group] at step
        rw [news_append, news_cons, new_same, List.singleton_append, Cursor.skip_group] at step'
        generalize Cursor.skipBlanks _ = c at blanks step
        generalize Cursor.skipBlanks _ = c' at blanks step'
        obtain ⟨before, rest, rfl⟩ := blanks
        rcases ih rest.length (by simp; omega) h.right.right _ _ rfl with
          ⟨m, m', old, new⟩ | ⟨groups, groups', d, d', both, old, new⟩
        · rw [old] at step
          rw [new] at step'
          exact .inl ⟨m, m', by simpa [Except.map] using step, by simpa [Except.map] using step'⟩
        · rw [old] at step
          rw [new] at step'
          refine .inr ⟨olds inner :: groups, news inner :: groups', d, d', ?_,
            by simpa [Except.map] using step, by simpa [Except.map] using step'⟩
          rw [past]
          refine Cursors.prepend (Cursors.prepend ?_)
          simpa [Nat.add_assoc] using both
    · exact .inr ⟨[], [], _, _, .mk [] ps rfl, Arguments.brackets_of_head?_ne old construct,
        Arguments.brackets_of_head?_ne new construct⟩

end Exchanged

/-- What the two texts say to a control word before them, which stands at `start` and at `start'`. -/
inductive Answers (ps : List Piece) (pos pos' : Nat) (w : Text) (start start' : Nat) :
    Except Malformed (Option Command) → Except Malformed (Option Command) → Prop
  | refused (m m' : Malformed) : Answers ps pos pos' w start start' (.error m) (.error m')
  | mentioned : Answers ps pos pos' w start start' (.ok none) (.ok none)
  | used {c c' : Command} (before argument rest : List Piece)
      (eq : ps = before ++ (argument ++ same ['}'] :: rest))
      (name : c.name = w) (name' : c'.name = w)
      (span : c.span = ⟨start, pos + ((olds before).length + ((olds argument).length + 1))⟩)
      (span' : c'.span = ⟨start', pos' + ((news before).length + ((news argument).length + 1))⟩)
      (old : c.argument = olds argument) (new : c'.argument = news argument) :
      Answers ps pos pos' w start start' (.ok (some c)) (.ok (some c'))

namespace Exchanged

open Arguments in
/-- The place where the brace group of a command begins, if it has one. -/
theorem cursors_brace (h : Exchanged ps) (construct : Text) (pos pos' : Nat) :
    (∃ m m', brackets construct (Cursor.skipStar ⟨pos, olds ps⟩).skipBlanks = .error m ∧
      brackets construct (Cursor.skipStar ⟨pos', news ps⟩).skipBlanks = .error m') ∨
    ∃ groups groups' c c' before rest, ps = before ++ rest ∧
      brackets construct (Cursor.skipStar ⟨pos, olds ps⟩).skipBlanks = .ok (groups, c) ∧
      brackets construct (Cursor.skipStar ⟨pos', news ps⟩).skipBlanks = .ok (groups', c') ∧
      c.skipBlanks = ⟨pos + (olds before).length, olds rest⟩ ∧
      c'.skipBlanks = ⟨pos' + (news before).length, news rest⟩ := by
  have star := h.cursors_skipStar pos pos'
  generalize Cursor.skipStar ⟨pos, olds ps⟩ = c at star ⊢
  generalize Cursor.skipStar ⟨pos', news ps⟩ = c' at star ⊢
  obtain ⟨before₁, rest, rfl⟩ := star
  have blanks := h.right.cursors_skipBlanks (pos + (olds before₁).length) (pos' + (news before₁).length)
  generalize Cursor.skipBlanks _ = c at blanks ⊢
  generalize Cursor.skipBlanks _ = c' at blanks ⊢
  obtain ⟨before₂, rest, rfl⟩ := blanks
  rcases h.right.right.cursors_brackets construct (pos + (olds before₁).length + (olds before₂).length)
      (pos' + (news before₁).length + (news before₂).length) with
    refused | ⟨groups, groups', c, c', both, old, new⟩
  · exact .inl refused
  · obtain ⟨before₃, rest, rfl⟩ := both
    have blanks := h.right.right.right.cursors_skipBlanks
      (pos + (olds before₁).length + (olds before₂).length + (olds before₃).length)
      (pos' + (news before₁).length + (news before₂).length + (news before₃).length)
    generalize hc : Cursor.skipBlanks ⟨_, olds rest⟩ = c at blanks
    generalize hc' : Cursor.skipBlanks ⟨_, news rest⟩ = c' at blanks
    obtain ⟨before₄, rest, rfl⟩ := blanks
    refine .inr ⟨groups, groups', _, _, before₁ ++ (before₂ ++ (before₃ ++ before₄)), rest, by simp, old, new,
      hc.trans ?_, hc'.trans ?_⟩ <;> simp [Nat.add_assoc]

open Command in
theorem answers (h : Exchanged ps) (w : Text) (start start' pos pos' : Nat) :
    Answers ps pos pos' w start start' (afterName? w start ⟨pos, olds ps⟩)
      (afterName? w start' ⟨pos', news ps⟩) := by
  rcases h.cursors_brace ('\\' :: w) pos pos' with
    ⟨m, m', old, new⟩ | ⟨groups, groups', c, c', before, rest, rfl, old, new, hc, hc'⟩
  · rw [afterName?_eq, afterName?_eq, Arguments.read_eq_error old, Arguments.read_eq_error new]
    exact .refused m m'
  · rcases h.right.head_cases (c := '{') (by decide) with ⟨inner, rfl⟩ | ⟨none, none'⟩
    · have group := h.right.of_cons.closes_brace 0
      generalize hm : braceLength? 0 (olds inner) = m at group
      generalize hm' : braceLength? 0 (news inner) = m' at group
      cases group with
      | never =>
        rw [afterName?_eq, afterName?_eq, Arguments.read_eq old, Arguments.read_eq new,
          Arguments.braces_one_unclosed (by rw [hc]; rfl) hm, Arguments.braces_one_unclosed (by rw [hc']; rfl) hm']
        exact .refused _ _
      | closed argument rest eq =>
        have opens : Arguments.Opens ('\\' :: w) _ groups c.skipBlanks (olds inner) _ :=
          ⟨⟨c, old, rfl⟩, by rw [hc]; rfl, hm⟩
        have opens' : Arguments.Opens ('\\' :: w) _ groups' c'.skipBlanks (news inner) _ :=
          ⟨⟨c', new, rfl⟩, by rw [hc']; rfl, hm'⟩
        rw [afterName?_of_opens opens, afterName?_of_opens opens']
        subst eq
        refine .used (before ++ [same ['{']]) argument rest (by simp) rfl rfl ?_ ?_ ?_ ?_
        · simp [ofGroup, hc]
          omega
        · simp [ofGroup, hc']
          omega
        · simp [ofGroup]
        · simp [ofGroup]
    · rw [afterName?_eq_none_iff.2 (Arguments.read_one_eq_none_iff.2 ⟨groups, c, old, by rwa [hc]⟩),
        afterName?_eq_none_iff.2 (Arguments.read_one_eq_none_iff.2 ⟨groups', c', new, by rwa [hc']⟩)]
      exact .mentioned

end Exchanged

end Piece

/-- Two searches that find corresponding things, and that are both stopped or both not. -/
structure Scan.Matches {α β : Type} (R : α → β → Prop) (s : Scan α) (s' : Scan β) : Prop where
  found : List.Forall₂ R s.found s'.found
  stopped : s.stopped = none ↔ s'.stopped = none

namespace Scan.Matches

variable {α β γ δ : Type} {R : α → β → Prop} {S : γ → δ → Prop} {s : Scan α} {s' : Scan β} {a : α} {b : β}

theorem imp (h : Matches R s s') {R' : α → β → Prop} (k : ∀ a b, R a b → R' a b) : Matches R' s s' :=
  ⟨h.found.imp k, h.stopped⟩

theorem done : Matches R .done .done := ⟨.nil, Iff.rfl⟩

theorem stop (m m' : Malformed) : Matches R (.stop m) (.stop m') := ⟨.nil, by simp [Scan.stop]⟩

theorem cons (h : Matches R s s') (k : R a b) : Matches R (s.cons a) (s'.cons b) := ⟨.cons k h.found, h.stopped⟩

theorem exists_eq {l : List α} (h : Matches R ⟨l, none⟩ s') : ∃ l', s' = ⟨l', none⟩ ∧ List.Forall₂ R l l' := by
  obtain ⟨found, stopped⟩ := s'
  obtain rfl : stopped = none := h.stopped.1 rfl
  exact ⟨found, rfl, h.found⟩

theorem map (h : Matches R s s') {f : α → γ} {g : β → δ} (k : ∀ a b, R a b → S (f a) (g b)) :
    Matches S (s.map f) (s'.map g) :=
  ⟨List.forall₂_map_left_iff.2 (List.forall₂_map_right_iff.2 (h.found.imp k)), h.stopped⟩

end Scan.Matches

/-- A command of one text and the corresponding one of another. -/
structure Command.Matches (places : Nat → Nat → Prop) (c c' : Command) : Prop where
  name : c.name = c'.name
  start : places c.span.start c'.span.start
  stop : places c.span.stop c'.span.stop
  argument : ∃ ps, Piece.Exchanged ps ∧ c.argument = Piece.olds ps ∧ c'.argument = Piece.news ps

theorem Command.Matches.imp {places places' : Nat → Nat → Prop} {c c' : Command} (h : c.Matches places c')
    (k : ∀ i i', places i i' → places' i i') : c.Matches places' c' :=
  ⟨h.name, k _ _ h.start, k _ _ h.stop, h.argument⟩

namespace Piece.Exchanged

open Command

variable {ps : List Piece} {names : List Text}

/-- A control word is read alike before corresponding pieces, where what comes later is searched alike. -/
theorem matches_word (lead : List Piece) {w : Text} (h : Exchanged ps) (old : olds lead = '\\' :: w)
    (new : news lead = '\\' :: w) (hw : Word w (olds ps)) (hw' : Word w (news ps)) (pos pos' : Nat)
    (later : ∀ before rest, ps = before ++ rest →
      (scan names (pos + (olds (lead ++ before)).length) (olds rest)).Matches
        (Command.Matches (At (lead ++ ps) pos pos'))
        (scan names (pos' + (news (lead ++ before)).length) (news rest))) :
    (scan names pos (olds (lead ++ ps))).Matches (Command.Matches (At (lead ++ ps) pos pos'))
      (scan names pos' (news (lead ++ ps))) := by
  have past (before : List Piece) :
      pos + (olds (lead ++ before)).length = pos + 1 + w.length + (olds before).length := by
    rw [olds_append, old, List.length_append, List.length_cons]
    omega
  have past' (before : List Piece) :
      pos' + (news (lead ++ before)).length = pos' + 1 + w.length + (news before).length := by
    rw [news_append, new, List.length_append, List.length_cons]
    omega
  have mention := later [] ps rfl
  rw [past, past'] at mention
  have text : olds (lead ++ ps) = '\\' :: (w ++ olds ps) := by rw [olds_append, old, List.cons_append]
  have text' : news (lead ++ ps) = '\\' :: (w ++ news ps) := by rw [news_append, new, List.cons_append]
  rw [text, text']
  by_cases mem : w ∈ names
  · have answers := h.answers w pos pos' (pos + 1 + w.length) (pos' + 1 + w.length)
    generalize ha : afterName? w pos _ = a at answers
    generalize ha' : afterName? w pos' _ = a' at answers
    cases answers with
    | refused m m' =>
      rw [scan_stopped hw mem ha, scan_stopped hw' mem ha']
      exact .stop m m'
    | mentioned =>
      rw [scan_mention hw fun _ => ha, scan_mention hw' fun _ => ha']
      exact mention
    | @used c c' before argument rest eq name name' span span' written written' =>
      have parts : ps = (before ++ (argument ++ [same ['}']])) ++ rest := by simpa using eq
      have place : At (lead ++ ps) pos pos' _ _ :=
        .mk (lead ++ (before ++ (argument ++ [same ['}']]))) rest (by simp [eq])
      have tail := later _ rest parts
      have stop : pos + (olds (lead ++ (before ++ (argument ++ [same ['}']])))).length = c.span.stop := by
        rw [past, span]
        simp
      have stop' : pos' + (news (lead ++ (before ++ (argument ++ [same ['}']])))).length = c'.span.stop := by
        rw [past', span']
        simp
      rw [stop, stop'] at place tail
      have old : olds ps = olds before ++ (olds argument ++ '}' :: olds rest) := by simp [eq]
      have new : news ps = news before ++ (news argument ++ '}' :: news rest) := by simp [eq]
      rw [scan_argument hw mem ha old (by rw [span]), scan_argument hw' mem ha' new (by rw [span'])]
      have start : At (lead ++ ps) pos pos' c.span.start c'.span.start := by
        rw [span, span']
        exact .start _ _ _
      have inner : Exchanged argument := (eq ▸ h).right.left
      exact tail.cons ⟨name.trans name'.symm, start, place, argument, inner, written, written'⟩
  · rw [scan_mention hw fun yes => (mem yes).elim, scan_mention hw' fun yes => (mem yes).elim]
    exact mention

theorem matches_scan (h : Exchanged ps) (other : ∀ w ∈ Reference.commandNames, w ∉ names) (pos pos' : Nat) :
    (scan names pos (olds ps)).Matches (Command.Matches (At ps pos pos')) (scan names pos' (news ps)) := by
  induction n : ps.length using Nat.strong_induction_on generalizing ps pos pos' with
  | _ n ih =>
    subst n
    -- What is found past some of the pieces.
    have later (before : List Piece) {rest : List Piece} (eq : ps = before ++ rest) (ne : before ≠ []) :
        (scan names (pos + (olds before).length) (olds rest)).Matches (Command.Matches (At ps pos pos'))
          (scan names (pos' + (news before).length) (news rest)) := by
      subst eq
      have less : rest.length < (before ++ rest).length := by
        simpa [List.length_pos_iff] using ne
      exact (ih rest.length less h.right _ _ rfl).imp fun c c' hc => hc.imp fun i i' hi => hi.prepend
    cases h with
    | nil | lone => simpa using Scan.Matches.done
    | @char c ps hc rest =>
      have tail := later [same [c]] rfl (by simp)
      simpa [scan_other hc] using tail
    | @markup x y ps hx hy rest =>
      have tail := later [⟨x, y⟩] rfl (by simp)
      simpa [hx.scan names other, hy.scan names other] using tail
    | @pair c ps rest =>
      cases letter : c.isAlpha with
      | false =>
        have tail := later [same ['\\', c]] rfl (by simp)
        simpa [scan_symbol letter] using tail
      | true =>
        obtain ⟨u, after, rfl, letters, old, new⟩ := rest.exists_run (p := Char.isAlpha) rfl
        have letters : ∀ x ∈ c :: u, x.isAlpha := by simpa [letter] using letters
        refine matches_word (same ['\\', c] :: chars u) (w := c :: u) rest.right (by simp) (by simp)
          ⟨by simp, letters, old⟩ ⟨by simp, letters, new⟩ pos pos' fun before last eq => ?_
        exact later _ (by rw [eq]; simp) (by simp)

end Piece.Exchanged

end FloatFlattening
