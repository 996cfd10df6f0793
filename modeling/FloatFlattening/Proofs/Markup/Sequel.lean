import FloatFlattening.Proofs.Markup.Usage
/-!
What follows a control word. It depends on the text alone, not on where the word stands; and markup that pairs
its own braces and brackets can be taken out of a group without changing what comes past the group.
-/

namespace FloatFlattening

/-- What follows a control word: no argument, so that the command is only mentioned; or its arguments, and then
the given text; or a group that is never closed. -/
inductive Sequel
  | mentioned
  | used (rest : Text)
  | broken
  deriving DecidableEq, Repr

/-- What follows, by what was read from a cursor. -/
def Sequel.ofRead (c : Cursor) : Except Malformed (Option Arguments) → Sequel
  | .error _ => .broken
  | .ok none => .mentioned
  | .ok (some a) => .used (c.rest.drop (a.stop - c.pos))

variable {s t u m a : Text} {depth k l : Nat} {c c' : Cursor} {d : Char}

/-! Markup that is taken out of a group. -/

/-- Where a group ends past its first `k` characters, and where it does with `l` more in it. -/
inductive EndsPast (k l : Nat) : Option Nat → Option Nat → Prop
  | never : EndsPast k l none none
  | ends (n : Nat) : EndsPast k l (some (k + n)) (some (k + l + n))

theorem EndsPast.start (l : Nat) (n? : Option Nat) : EndsPast 0 l n? (n?.map (· + l)) := by
  cases n? with
  | none => exact .never
  | some n => simpa [Nat.add_comm l] using EndsPast.ends (k := 0) (l := l) n

theorem EndsPast.prepend {n? n'? : Option Nat} (h : EndsPast k l n? n'?) (i : Nat) :
    EndsPast (k + i) l (n?.map (· + i)) (n'?.map (· + i)) := by
  cases h with
  | never => exact .never
  | ends n =>
    have := EndsPast.ends (k := k + i) (l := l) n
    rwa [Nat.add_right_comm, Nat.add_right_comm k i l, Nat.add_right_comm (k + l) i n] at this

/-- Markup that pairs its own braces makes a brace group that is open longer, and changes nothing else. -/
theorem endsPast_braceLength? (unclosed : braceLength? depth s = none) (free : Text.escapes s = false)
    (hm : Braced m) (a : Text) :
    EndsPast s.length m.length (braceLength? depth (s ++ a)) (braceLength? depth (s ++ (m ++ a))) := by
  induction depth, s using braceLength?_induction with
  | nil depth =>
    rw [List.nil_append, List.nil_append, hm.length_append]
    exact .start _ _
  | lone => simp [Text.escapes, Text.escapeStep] at free
  | pair depth c s ih =>
    simp only [braceLength?, Option.map_eq_none_iff] at unclosed
    rw [Text.escapes_pair] at free
    simpa [braceLength?] using (ih unclosed free).prepend 2
  | opening depth s ih =>
    simp only [braceLength?, Option.map_eq_none_iff] at unclosed
    rw [Text.escapes_cons (by decide)] at free
    simpa [braceLength?] using (ih unclosed free).prepend 1
  | last s => simp [braceLength?] at unclosed
  | closing depth s ih =>
    simp only [braceLength?, Option.map_eq_none_iff] at unclosed
    rw [Text.escapes_cons (by decide)] at free
    simpa [braceLength?] using (ih unclosed free).prepend 1
  | other depth c s h₁ h₂ h₃ ih =>
    rw [braceLength?_other h₁ h₂ h₃, Option.map_eq_none_iff] at unclosed
    rw [Text.escapes_cons h₁] at free
    simpa [braceLength?_other h₁ h₂ h₃] using (ih unclosed free).prepend 1

/-- Where the braces end past the markup, both texts go on alike. -/
theorem EndsPast.bracketLength?_braces {t : Text}
    (h : EndsPast s.length k (braceLength? 0 (s ++ a)) (braceLength? 0 (t ++ a))) (length : t.length = s.length + k)
    (depth : Nat) :
    EndsPast (s.length + 1) k (bracketLength? depth ('{' :: (s ++ a))) (bracketLength? depth ('{' :: (t ++ a))) := by
  generalize hn : braceLength? 0 (s ++ a) = n? at h
  generalize hn' : braceLength? 0 (t ++ a) = n'? at h
  cases h with
  | never =>
    simp only [bracketLength?, hn, hn']
    exact .never
  | ends n =>
    have rest : (s ++ a).drop (s.length + n + 1) = a.drop (n + 1) := by
      rw [Nat.add_assoc, List.drop_length_add_append]
    have rest' : (t ++ a).drop (s.length + k + n + 1) = a.drop (n + 1) := by
      rw [← length, Nat.add_assoc, List.drop_length_add_append]
    rw [bracketLength?_group hn, bracketLength?_group hn', rest, rest']
    cases bracketLength? depth (a.drop (n + 1)) with
    | none => exact .never
    | some i =>
      have := EndsPast.ends (k := s.length + 1) (l := k) (n + 1 + i)
      simp only [Option.map_some]
      convert this using 2 <;> omega

/-- The same for a bracket group, where the markup may stand in braces inside it. -/
theorem endsPast_bracketLength? (unclosed : bracketLength? depth s = none) (free : Text.escapes s = false)
    (hm : Braced m) (hm' : Bracketed m) (a : Text) :
    EndsPast s.length m.length (bracketLength? depth (s ++ a)) (bracketLength? depth (s ++ (m ++ a))) := by
  induction depth, s using bracketLength?_induction with
  | nil depth =>
    rw [List.nil_append, List.nil_append, hm'.length_append]
    exact .start _ _
  | lone => simp [Text.escapes, Text.escapeStep] at free
  | pair depth c s ih =>
    simp only [bracketLength?, Option.map_eq_none_iff] at unclosed
    rw [Text.escapes_pair] at free
    simpa [bracketLength?] using (ih unclosed free).prepend 2
  | unclosed depth s open_ =>
    rw [Text.escapes_cons (by decide)] at free
    have inner := endsPast_braceLength? open_ free hm a
    rw [← List.append_assoc] at inner
    simpa using inner.bracketLength?_braces List.length_append depth
  | group depth s n hn ih =>
    rw [bracketLength?_group hn, Option.map_eq_none_iff] at unclosed
    have lt := braceLength?_lt hn
    have cut : Text.escapes ('{' :: s.take (n + 1)) = false := by
      rw [Text.escapes_cons (by decide)]
      exact Text.escapes_take_succ (getElem?_braceLength? hn) (by decide)
    have later := ih unclosed (by
      rw [← Text.escapes_append cut, List.cons_append, List.take_append_drop, free])
    rw [← List.drop_append_of_le_length (by omega), ← List.drop_append_of_le_length (by omega)] at later
    rw [List.cons_append, List.cons_append, bracketLength?_group (braceLength?_append hn _),
      bracketLength?_group (braceLength?_append hn _)]
    have := later.prepend (n + 2)
    rwa [List.length_drop, show s.length - (n + 1) + (n + 2) = ('{' :: s).length by simp; omega] at this
  | opening depth s ih =>
    simp only [bracketLength?, Option.map_eq_none_iff] at unclosed
    rw [Text.escapes_cons (by decide)] at free
    simpa [bracketLength?] using (ih unclosed free).prepend 1
  | last s => simp [bracketLength?] at unclosed
  | closing depth s ih =>
    simp only [bracketLength?, Option.map_eq_none_iff] at unclosed
    rw [Text.escapes_cons (by decide)] at free
    simpa [bracketLength?] using (ih unclosed free).prepend 1
  | other depth c s h₁ h₂ h₃ h₄ ih =>
    rw [bracketLength?_other h₁ h₂ h₃ h₄, Option.map_eq_none_iff] at unclosed
    rw [Text.escapes_cons h₁] at free
    simpa [bracketLength?_other h₁ h₂ h₃ h₄] using (ih unclosed free).prepend 1

/-! Where the arguments end. -/

theorem Cursor.skipBlanks_congr (h : c.rest = c'.rest) :
    c.skipBlanks.rest = c'.skipBlanks.rest ∧ ∃ k, c.skipBlanks = c.skip k ∧ c'.skipBlanks = c'.skip k :=
  ⟨by rw [rest_skipBlanks, h, rest_skipBlanks], _, rfl, by rw [h]; rfl⟩

namespace Arguments

def sequel (t : Text) : Sequel := .ofRead ⟨0, t⟩ (read [] 1 ⟨0, t⟩)

theorem brackets_congr (h : c.rest = c'.rest) (construct construct' : Text) :
    (∃ m m', brackets construct c = .error m ∧ brackets construct' c' = .error m') ∨
      ∃ groups k, brackets construct c = .ok (groups, c.skip k) ∧
        brackets construct' c' = .ok (groups, c'.skip k) := by
  induction c using brackets_induction generalizing c' with
  | unclosed c t ht unclosed =>
    exact .inl ⟨_, _, brackets_unclosed ht unclosed construct, brackets_unclosed (h ▸ ht) unclosed construct'⟩
  | group c t n ht length ih =>
    have ht' : c'.rest = '[' :: t := h ▸ ht
    have next : (c.skip (n + 2)).rest = (c'.skip (n + 2)).rest := by rw [Cursor.rest_skip, h, Cursor.rest_skip]
    obtain ⟨past, k, skip, skip'⟩ := Cursor.skipBlanks_congr next
    rw [brackets_group ht length, brackets_group ht' length]
    rcases ih past with ⟨m, m', error, error'⟩ | ⟨groups, i, ok, ok'⟩
    · exact .inl ⟨m, m', by rw [error]; rfl, by rw [error']; rfl⟩
    · refine .inr ⟨t.take n :: groups, n + 2 + (k + i), ?_, ?_⟩
      · rw [ok, skip, Cursor.skip_skip, Cursor.skip_skip]
        rfl
      · rw [ok', skip', Cursor.skip_skip, Cursor.skip_skip]
        rfl
  | done c head => exact .inr ⟨[], 0, brackets_of_head?_ne head _, brackets_of_head?_ne (h ▸ head) _⟩

/-- What follows does not depend on the place, nor on what the arguments are read for. -/
theorem ofRead_eq_sequel (construct : Text) (c : Cursor) : .ofRead c (read construct 1 c) = sequel c.rest := by
  obtain ⟨c', hc'⟩ : ∃ c' : Cursor, c' = ⟨0, c.rest⟩ := ⟨_, rfl⟩
  have same : c.rest = c'.rest := by rw [hc']
  rw [sequel, ← hc']
  obtain ⟨same₁, k, skip, skip'⟩ := Cursor.skipBlanks_congr same
  rcases brackets_congr same₁ construct [] with ⟨m, m', error, error'⟩ | ⟨groups, i, ok, ok'⟩
  · rw [read_eq_error error, read_eq_error error']
    rfl
  · have next : (c.skipBlanks.skip i).rest = (c'.skipBlanks.skip i).rest := by
      rw [Cursor.rest_skip, same₁, Cursor.rest_skip]
    obtain ⟨same₂, j, skip₂, skip₂'⟩ := Cursor.skipBlanks_congr next
    rw [read_eq ok, read_eq ok']
    by_cases brace : (c.skipBlanks.skip i).skipBlanks.rest.head? = some '{'
    · obtain ⟨t, ht⟩ := List.head?_eq_some_iff.1 brace
      cases length : braceLength? 0 t with
      | none =>
        rw [braces_one_unclosed ht length, braces_one_unclosed (same₂ ▸ ht) length]
        rfl
      | some n =>
        rw [braces_one_group ht length, braces_one_group (same₂ ▸ ht) length, skip₂, skip₂', skip, skip']
        simp only [Except.map, Option.map_some, Sequel.ofRead, Cursor.pos_skip, same]
        congr 2
        omega
    · rw [braces_one_of_head?_ne brace, braces_one_of_head?_ne (same₂ ▸ brace)]
      rfl

/-- Where the bracket groups go on past some of the text, what follows is what follows there. -/
theorem sequel_drop {f : List Text → List Text} (h : brackets [] (Cursor.skipBlanks ⟨0, t⟩) =
    (brackets [] (Cursor.skip ⟨0, t⟩ k).skipBlanks).map fun (more, c') => (f more, c')) :
    sequel t = sequel (t.drop k) := by
  rw [← Cursor.rest_skip ⟨0, t⟩ k, ← ofRead_eq_sequel [] (Cursor.skip ⟨0, t⟩ k), sequel]
  cases hb : brackets [] (Cursor.skip ⟨0, t⟩ k).skipBlanks with
  | error m =>
    rw [hb] at h
    rw [read_eq_error h, read_eq_error hb]
    rfl
  | ok r =>
    obtain ⟨groups, c₁⟩ := r
    rw [hb] at h
    have whole := read_eq h 1
    have part := read_eq hb 1
    rw [whole, part]
    cases hg : braces [] 1 c₁ with
    | error m => rfl
    | ok group? =>
      cases group? with
      | none => rfl
      | some group =>
        obtain ⟨mandatory, stop⟩ := group
        rw [hg] at part
        obtain ⟨_, c', t', n, opens, eq⟩ := read_one_eq_some_iff.1 part
        obtain ⟨i, rfl, -⟩ := opens.skip
        obtain ⟨-, -, rfl⟩ := Arguments.mk.inj eq
        simp only [Except.map, Option.map_some, Sequel.ofRead, Cursor.pos_skip, Cursor.rest_skip, List.drop_drop]
        congr 2
        omega

theorem sequel_brace (t : Text) : sequel ('{' :: t) =
    match braceLength? 0 t with
    | none => .broken
    | some n => .used (t.drop (n + 1)) := by
  have here : (Cursor.skipBlanks ⟨0, '{' :: t⟩) = ⟨0, '{' :: t⟩ :=
    Cursor.skipBlanks_eq_self (by simp [Text.isAsciiBlank])
  have none : brackets [] (Cursor.skipBlanks ⟨0, '{' :: t⟩) = .ok ([], ⟨0, '{' :: t⟩) := by
    rw [here]
    exact brackets_of_head?_ne (by simp) []
  rw [sequel, read_eq none]
  cases length : braceLength? 0 t with
  | none =>
    rw [braces_one_unclosed (by rw [here]) length]
    rfl
  | some n =>
    rw [braces_one_group (by rw [here]) length, here]
    simp [Except.map, Sequel.ofRead]

theorem sequel_bracket (t : Text) : sequel ('[' :: t) =
    match bracketLength? 0 t with
    | none => .broken
    | some n => sequel (t.drop (n + 1)) := by
  have here : (Cursor.skipBlanks ⟨0, '[' :: t⟩) = ⟨0, '[' :: t⟩ :=
    Cursor.skipBlanks_eq_self (by simp [Text.isAsciiBlank])
  cases length : bracketLength? 0 t with
  | none =>
    rw [sequel, read_eq_error (brackets_unclosed (by rw [here]) length [])]
    rfl
  | some n =>
    refine sequel_drop (k := n + 2) (f := (t.take n :: ·)) ?_
    rw [here, brackets_group rfl length]

/-- What follows blanks and bracket groups is what follows past them. -/
theorem sequel_options {groups : List Text} (h : Options groups u) (hd : Text.isAsciiBlank d = false) (t : Text) :
    sequel (u ++ d :: t) = sequel (d :: t) := by
  have blanks {u : Text} (hu : ∀ x ∈ u, Text.isAsciiBlank x) {d : Char} (hd : Text.isAsciiBlank d = false)
      (t : Text) : sequel (u ++ d :: t) = sequel (d :: t) := by
    have skip : Cursor.skipBlanks ⟨0, u ++ d :: t⟩ = Cursor.skip ⟨0, u ++ d :: t⟩ u.length :=
      Cursor.skipBlanks_of_rest rfl hu (by simpa using hd)
    have stays : (Cursor.skip ⟨0, u ++ d :: t⟩ u.length).skipBlanks = Cursor.skip ⟨0, u ++ d :: t⟩ u.length :=
      Cursor.skipBlanks_eq_self (by simpa using hd)
    rw [sequel_drop (k := u.length) (f := id), List.drop_left]
    rw [skip, stays]
    exact (congrFun Except.map_id _).symm
  induction h with
  | nil hu => exact blanks hu hd t
  | @cons groups u g v hu group more ih =>
    have length : bracketLength? 0 (g ++ ']' :: (v ++ d :: t)) = some g.length :=
      bracketLength?_eq_some_iff.2 ⟨g, _, group, rfl, rfl⟩
    rw [List.append_assoc, List.cons_append, List.append_assoc, List.cons_append, blanks hu (by decide),
      sequel_bracket, length]
    dsimp only
    rw [← List.drop_drop, List.drop_left]
    exact ih

/-- Markup that pairs its own braces and brackets makes no difference to a group that is open before it. -/
theorem sequel_unclosed_insert {defect : Defect} (h : Unclosed defect s) (free : Text.escapes s = false)
    (hm : Braced m) (hm' : Bracketed m) (a : Text) : sequel (s ++ (m ++ a)) = sequel (s ++ a) := by
  have past {t : Text} (n : Nat) :
      (t ++ (m ++ a)).drop (t.length + m.length + n + 1) = (t ++ a).drop (t.length + n + 1) := by
    simp only [Nat.add_assoc, List.drop_length_add_append]
  cases h with
  | @bracket t none =>
    have unclosed := bracketLength?_eq_none_iff.2 none
    rw [Text.escapes_cons (by decide)] at free
    have ends := endsPast_bracketLength? unclosed free hm hm' a
    rw [List.cons_append, List.cons_append, sequel_bracket, sequel_bracket]
    generalize bracketLength? 0 (t ++ a) = n? at ends
    generalize bracketLength? 0 (t ++ (m ++ a)) = n'? at ends
    cases ends with
    | never => rfl
    | ends n => simp only [past]
  | @brace t none =>
    have unclosed := braceLength?_eq_none_iff.2 none
    rw [Text.escapes_cons (by decide)] at free
    have ends := endsPast_braceLength? unclosed free hm a
    rw [List.cons_append, List.cons_append, sequel_brace, sequel_brace]
    generalize braceLength? 0 (t ++ a) = n? at ends
    generalize braceLength? 0 (t ++ (m ++ a)) = n'? at ends
    cases ends with
    | never => rfl
    | ends n => simp only [past]

end Arguments

namespace Command

/-- What follows the name of a command, with its star. -/
def sequel (r : Text) : Sequel := Arguments.sequel (Cursor.skipStar ⟨0, r⟩).rest

@[simp] theorem sequel_nil : sequel [] = .mentioned := by decide +kernel

/-- What is read after a name, by what follows it. -/
inductive Reads (name : Text) (pos : Nat) (r : Text) : Sequel → Except Malformed (Option Command) → Prop
  | mentioned : Reads name pos r .mentioned (.ok none)
  | used {c : Command} {k : Nat} (named : c.name = name) (stop : c.span.stop = pos + (k + 1))
      (close : r[k]? = some '}') : Reads name pos r (.used (r.drop (k + 1))) (.ok (some c))
  | broken (m : Malformed) : Reads name pos r .broken (.error m)

theorem reads (name : Text) (start pos : Nat) (r : Text) :
    Reads name pos r (sequel r) (afterName? name start ⟨pos, r⟩) := by
  have same : (Cursor.skipStar ⟨0, r⟩).rest = (Cursor.skipStar ⟨pos, r⟩).rest := by
    rw [Cursor.skipStar, Cursor.skipStar]
    split <;> rfl
  have past : (Cursor.skipStar ⟨pos, r⟩).pos = pos + (star (r.head? = some '*')).length := by
    rw [(Cursor.skipStar_append ⟨pos, r⟩).2, Cursor.pos_skip]
  have rest : (Cursor.skipStar ⟨pos, r⟩).rest = r.drop (star (r.head? = some '*')).length := by
    rw [(Cursor.skipStar_append ⟨pos, r⟩).2, Cursor.rest_skip]
  rw [sequel, same, ← Arguments.ofRead_eq_sequel ('\\' :: name)]
  cases read : Arguments.read ('\\' :: name) 1 (Cursor.skipStar ⟨pos, r⟩) with
  | error m =>
    rw [afterName?_eq, read]
    exact .broken m
  | ok a? =>
    cases a? with
    | none =>
      rw [afterName?_eq_none_iff.2 read]
      exact .mentioned
    | some a =>
      obtain ⟨groups, c', t, n, opens, rfl⟩ := Arguments.read_one_eq_some_iff.1 read
      have after := afterName?_of_opens opens start
      rw [after]
      obtain ⟨-, -, k, stop, close⟩ := span_of_afterName? after
      have eq : (Cursor.skipStar ⟨pos, r⟩).rest.drop (c'.pos + (n + 2) - (Cursor.skipStar ⟨pos, r⟩).pos) =
          r.drop (k + 1) := by
        obtain ⟨i, rfl, -⟩ := opens.skip
        simp only [ofGroup, Cursor.pos_skip] at stop
        rw [rest, List.drop_drop, Cursor.pos_skip]
        congr 1
        omega
      rw [Sequel.ofRead, eq]
      exact .used rfl stop close

theorem sequel_eq_mentioned_iff (name : Text) (start pos : Nat) :
    sequel s = .mentioned ↔ afterName? name start ⟨pos, s⟩ = .ok none := by
  have answer := reads name start pos s
  generalize sequel s = follows, afterName? name start ⟨pos, s⟩ = a at answer
  cases answer <;> simp

theorem sequel_eq_broken_iff (name : Text) (start pos : Nat) :
    sequel s = .broken ↔ ∃ m, afterName? name start ⟨pos, s⟩ = .error m := by
  have answer := reads name start pos s
  generalize sequel s = follows, afterName? name start ⟨pos, s⟩ = a at answer
  cases answer <;> simp

theorem sequel_of_afterName? {name : Text} {start pos : Nat} {c : Command}
    (h : afterName? name start ⟨pos, s⟩ = .ok (some c)) :
    ∃ k, c.name = name ∧ c.span.stop = pos + (k + 1) ∧ s[k]? = some '}' ∧ sequel s = .used (s.drop (k + 1)) := by
  have answer := reads name start pos s
  rw [h] at answer
  generalize sequel s = follows at answer
  cases answer with
  | used named stop close => exact ⟨_, named, stop, close, rfl⟩

theorem sequel_eq_used_iff (name : Text) (start pos : Nat) :
    sequel s = .used t ↔ ∃ c k, afterName? name start ⟨pos, s⟩ = .ok (some c) ∧ c.name = name ∧
      c.span.stop = pos + (k + 1) ∧ s[k]? = some '}' ∧ t = s.drop (k + 1) := by
  constructor
  · intro h
    cases ha : afterName? name start ⟨pos, s⟩ with
    | error m => cases h.symm.trans ((sequel_eq_broken_iff name start pos).2 ⟨m, ha⟩)
    | ok c? =>
      cases c? with
      | none => cases h.symm.trans ((sequel_eq_mentioned_iff name start pos).2 ha)
      | some c =>
        obtain ⟨k, named, stop, close, used⟩ := sequel_of_afterName? ha
        exact ⟨c, k, rfl, named, stop, close, Sequel.used.inj (h.symm.trans used)⟩
  · rintro ⟨c, k, ha, -, stop, -, rfl⟩
    obtain ⟨k', -, stop', -, used⟩ := sequel_of_afterName? ha
    rwa [show k = k' by omega]

theorem sequel_used_append (h : sequel s = .used t) (more : Text) : sequel (s ++ more) = .used (t ++ more) := by
  obtain ⟨c, k, ha, named, stop, close, rfl⟩ := (sequel_eq_used_iff [] 0 0).1 h
  have lt := (List.getElem?_eq_some_iff.1 close).1
  refine (sequel_eq_used_iff [] 0 0).2 ⟨c, k, afterName?_some_extend ha more, named, stop, ?_, ?_⟩
  · rwa [List.getElem?_append_left lt]
  · rw [List.drop_append_of_le_length lt]

theorem sequel_mentioned_append (h : sequel s = .mentioned) (head : ∀ x ∈ t.head?, Text.goesOn x = false) :
    sequel (s ++ t) = .mentioned :=
  (sequel_eq_mentioned_iff [] 0 0).2
    (afterName?_none_extend ((sequel_eq_mentioned_iff [] 0 0).1 h) (.inr head))

/-- The same for a command that is open. -/
theorem sequel_insert (h : sequel s = .broken) (free : Text.escapes s = false) (hm : Braced m) (hm' : Bracketed m)
    (a : Text) : sequel (s ++ (m ++ a)) = sequel (s ++ a) := by
  obtain ⟨m', ha⟩ := (sequel_eq_broken_iff [] 0 0).1 h
  rw [afterName?_eq, Except.map_eq_error_iff] at ha
  obtain ⟨groups, u, group, rest, options, -, -, unclosed⟩ := Arguments.exists_unclosed ha
  generalize m'.defect = defect at unclosed
  obtain ⟨d, t, rfl, ne, blank⟩ : ∃ d t, group = d :: t ∧ d ≠ '\\' ∧ Text.isAsciiBlank d = false := by
    cases unclosed with
    | bracket => exact ⟨_, _, rfl, by decide, by decide⟩
    | brace => exact ⟨_, _, rfl, by decide, by decide⟩
  have text := (Cursor.skipStar_append ⟨0, s⟩).1
  rw [rest] at text
  dsimp only at text
  have inner : Text.escapes (d :: t) = false := by
    rw [text, ← List.append_assoc, List.append_cons] at free
    rwa [Text.escapes_append (Text.escapes_of_getLast? (c := d) (by simp) ne), ← Text.escapes_cons ne] at free
  have longer (more : Text) : sequel (s ++ more) = Arguments.sequel (d :: t ++ more) := by
    have ne_nil : s ≠ [] := by
      rw [text]
      simp
    have skip : Cursor.skipStar ⟨0, s ++ more⟩ = (Cursor.skipStar ⟨0, s⟩).extend more :=
      Cursor.skipStar_extend (c := ⟨0, s⟩) fun e => (ne_nil e).elim
    rw [sequel, skip, Cursor.rest_extend, rest, List.append_assoc]
    exact Arguments.sequel_options options blank (t ++ more)
  rw [longer, longer, Arguments.sequel_unclosed_insert unclosed inner hm hm']

end Command

end FloatFlattening
