import FloatFlattening.Markup.Command
import FloatFlattening.Proofs.Markup.Arguments
/-!
Commands inside a longer text.
-/

namespace FloatFlattening

namespace Cursor

theorem isSuffix_skipStar (c : Cursor) : c.skipStar.rest <:+ c.rest := by
  rw [skipStar]
  split
  · exact List.drop_suffix _ _
  · exact List.suffix_refl _

theorem skipStar_extend {c : Cursor} {more : Text}
    (h : c.rest = [] → ∀ x ∈ more.head?, Text.goesOn x = false) :
    (c.extend more).skipStar = c.skipStar.extend more := by
  cases hc : c.rest with
  | nil =>
    have star : more.head? ≠ some '*' := fun e => by simpa [Text.goesOn] using h hc '*' e
    simp [skipStar, hc, star]
  | cons x t =>
    simp only [skipStar, rest_extend, hc, List.cons_append, List.head?_cons]
    split
    · exact skip_extend (by simp [hc]) more
    · rfl

end Cursor

namespace Command

open Arguments

/-- The command whose brace group begins as given. -/
def ofGroup (name : Text) (start : Nat) (c : Cursor) (groups : List Text) (c' : Cursor) (t : Text)
    (n : Nat) : Command :=
  { name, starred := c.rest.head? = some '*', span := ⟨start, c'.pos + (n + 2)⟩, optional := groups
    argument := t.take n, argumentSpan := ⟨c'.pos + 1, c'.pos + 1 + n⟩ }

theorem afterName?_eq (name : Text) (start : Nat) (c : Cursor) :
    afterName? name start c = (read ('\\' :: name) 1 c.skipStar).map
      fun arguments? => arguments?.bind fun arguments => arguments.mandatory.head?.map fun inner =>
        { name, starred := c.rest.head? = some '*', span := ⟨start, arguments.stop⟩
          optional := arguments.optional, argumentSpan := inner
          argument := (c.skipStar.rest.drop (inner.start - c.skipStar.pos)).take
            (inner.stop - inner.start) } := by
  simp only [afterName?, Cursor.skipStar]

theorem afterName?_of_opens {name : Text} {c c' : Cursor} {groups : List Text} {t : Text} {n : Nat}
    (h : Opens ('\\' :: name) c.skipStar groups c' t n) (start : Nat) :
    afterName? name start c = .ok (some (ofGroup name start c groups c' t n)) := by
  obtain ⟨k, rfl, ht, -⟩ := h.skip
  have text : c.skipStar.rest.drop (k + 1) = t := by
    rw [← List.drop_drop, ht, List.drop_succ_cons, List.drop_zero]
  have inner : c.skipStar.pos + k + 1 - c.skipStar.pos = k + 1 := by omega
  have length : c.skipStar.pos + k + 1 + n - (c.skipStar.pos + k + 1) = n := by omega
  rw [afterName?_eq, read_one_eq_some_iff.2 ⟨groups, _, t, n, h, rfl⟩]
  simp [Except.map, ofGroup, text, inner, length]

theorem afterName?_eq_some_iff {name : Text} {start : Nat} {c : Cursor} {d : Command} :
    afterName? name start c = .ok (some d) ↔ ∃ groups c' t n,
      Opens ('\\' :: name) c.skipStar groups c' t n ∧ d = ofGroup name start c groups c' t n := by
  constructor
  · intro h
    rw [afterName?_eq, Except.map_eq_ok_iff] at h
    obtain ⟨a?, ha, hd⟩ := h
    cases a? with
    | none => simp at hd
    | some a =>
      obtain ⟨groups, c', t, n, ho, -⟩ := read_one_eq_some_iff.1 ha
      refine ⟨groups, c', t, n, ho, ?_⟩
      have := afterName?_of_opens ho start
      rw [afterName?_eq, ha] at this
      simpa [Except.map, hd] using this
  · rintro ⟨groups, c', t, n, ho, rfl⟩
    exact afterName?_of_opens ho start

theorem afterName?_eq_none_iff {name : Text} {start : Nat} {c : Cursor} :
    afterName? name start c = .ok none ↔ read ('\\' :: name) 1 c.skipStar = .ok none := by
  constructor
  · intro h
    have := h
    rw [afterName?_eq, Except.map_eq_ok_iff] at h
    obtain ⟨a?, ha, -⟩ := h
    cases a? with
    | none => exact ha
    | some a =>
      obtain ⟨groups, c', t, n, ho, -⟩ := read_one_eq_some_iff.1 ha
      simp [afterName?_of_opens ho start] at this
  · intro h
    rw [afterName?_eq, h]
    rfl

theorem afterName?_some_extend {name : Text} {start : Nat} {c : Cursor} {d : Command}
    (h : afterName? name start c = .ok (some d)) (more : Text) :
    afterName? name start (c.extend more) = .ok (some d) := by
  obtain ⟨groups, c', t, n, ho, rfl⟩ := afterName?_eq_some_iff.1 h
  obtain ⟨k, -, ht, -⟩ := ho.skip
  have hc : c.rest ≠ [] := by
    intro e
    have := c.isSuffix_skipStar
    simp_all
  have longer := ho.extend more
  rw [← Cursor.skipStar_extend fun e => (hc e).elim] at longer
  rw [afterName?_of_opens longer]
  simp [ofGroup, List.head?_append_of_ne_nil _ hc,
    List.take_append_of_le_length (braceLength?_lt ho.length).le]

theorem afterName?_none_extend {name : Text} {start : Nat} {c : Cursor} {more : Text}
    (h : afterName? name start c = .ok none)
    (hm : (c.rest ≠ [] ∧ ∀ x ∈ c.rest.getLast?, Text.awaits x = false) ∨
      ∀ x ∈ more.head?, Text.goesOn x = false) :
    afterName? name start (c.extend more) = .ok none := by
  rw [afterName?_eq_none_iff] at h ⊢
  rw [Cursor.skipStar_extend fun e => hm.resolve_left fun l => l.1 e]
  refine read_one_none_extend h (hm.imp_left fun ⟨hc, last⟩ => ?_)
  have hs : c.skipStar.rest ≠ [] := by
    intro e
    rw [Cursor.skipStar] at e
    split at e
    next star =>
      obtain ⟨t, ht⟩ := List.head?_eq_some_iff.1 star
      obtain rfl : t = [] := by simpa [ht] using e
      simpa [Text.awaits] using last '*' (by simp [ht])
    next => exact hc e
  exact ⟨hs, Text.getLast?_of_isSuffix c.isSuffix_skipStar hs ▸ last⟩

/-- A control word and what follows it. -/
structure Word (w r : Text) : Prop where
  ne_nil : w ≠ []
  letters : ∀ c ∈ w, c.isAlpha
  ends : ∀ c ∈ r.head?, c.isAlpha = false

theorem Word.takeWhile {w r : Text} (h : Word w r) : (w ++ r).takeWhile Char.isAlpha = w := by
  rw [List.takeWhile_append_of_pos h.letters]
  cases r with
  | nil => simp
  | cons c r => simp [h.ends c rfl]

theorem Word.inj {w r w' r' : Text} (h : Word w r) (h' : Word w' r') (e : w ++ r = w' ++ r') : w = w' ∧ r = r' := by
  obtain rfl : w = w' := by rw [← h.takeWhile, e, h'.takeWhile]
  exact ⟨rfl, List.append_cancel_left e⟩

theorem Word.append {w r : Text} (h : Word w r) (ne : r ≠ []) (t : Text) : Word w (r ++ t) := by
  refine ⟨h.ne_nil, h.letters, ?_⟩
  rw [List.head?_append_of_ne_nil _ ne]
  exact h.ends

theorem Word.append_of_head {w r t : Text} (h : Word w r) (ht : ∀ c ∈ t.head?, c.isAlpha = false) :
    Word w (r ++ t) := by
  cases r with
  | nil => exact ⟨h.ne_nil, h.letters, ht⟩
  | cons c r => exact h.append (List.cons_ne_nil c r) t

theorem Word.take {w r : Text} (h : Word w r) (n : Nat) : Word w (r.take n) := by
  refine ⟨h.ne_nil, h.letters, fun c hc => ?_⟩
  rw [List.head?_take] at hc
  split at hc
  next => cases hc
  next => exact h.ends c hc

theorem Word.of_append {w r t : Text} (h : Word w (r ++ t)) : Word w r := by
  simpa using h.take r.length

/-- No backslash stands in a control word. -/
theorem Word.le_of_drop {w r s : Text} {i : Nat} (h : Word w r) (hi : 0 < i)
    (e : ('\\' :: (w ++ r)).drop i = '\\' :: s) : 1 + w.length ≤ i := by
  obtain ⟨i, rfl⟩ := Nat.exists_eq_add_of_le' hi
  by_contra lt
  have inside : i < w.length := by omega
  rw [List.drop_succ_cons, List.drop_append_of_le_length inside.le, List.drop_eq_getElem_cons inside,
    List.cons_append] at e
  have letter := h.letters _ (List.getElem_mem inside)
  rw [(List.cons.inj e).1] at letter
  exact absurd letter (by decide)

theorem exists_word {d : Char} (h : d.isAlpha) (t : Text) : ∃ w r, Word w r ∧ d :: t = w ++ r := by
  refine ⟨(d :: t).takeWhile Char.isAlpha, (d :: t).dropWhile Char.isAlpha, ⟨?_, ?_, ?_⟩, ?_⟩
  · simp [h]
  · exact fun c hc => List.mem_takeWhile_imp hc
  · intro c hc
    have := List.head?_dropWhile_not Char.isAlpha (d :: t)
    simp_all
  · exact List.takeWhile_append_dropWhile.symm

/-- A command ends just past the brace that closes its argument. -/
theorem span_of_afterName? {w r : Text} {start pos : Nat} {c : Command}
    (h : afterName? w start ⟨pos, r⟩ = .ok (some c)) :
    c.name = w ∧ c.span.start = start ∧ ∃ k, c.span.stop = pos + (k + 1) ∧ r[k]? = some '}' := by
  obtain ⟨groups, c', t, n, ho, rfl⟩ := afterName?_eq_some_iff.1 h
  obtain ⟨k, rfl, ht, -⟩ := ho.skip
  have close : (Cursor.skipStar ⟨pos, r⟩).rest[k + (n + 1)]? = some '}' := by
    rw [← List.getElem?_drop, ht, List.getElem?_cons_succ, getElem?_braceLength? ho.length]
  refine ⟨rfl, rfl, ?_⟩
  simp only [ofGroup, Cursor.pos_skip]
  rw [Cursor.skipStar] at close ⊢
  split at close
  next star =>
    refine ⟨1 + (k + (n + 1)), by simp [star]; omega, ?_⟩
    rwa [Cursor.rest_skip, List.getElem?_drop] at close
  next star => exact ⟨k + (n + 1), by simp [star]; omega, close⟩

variable {names : List Text} {pos start : Nat} {w r t : Text}

@[simp] theorem scan_nil : scan names pos [] = .done := by rw [scan]

@[simp] theorem scan_lone : scan names pos ['\\'] = .done := by simp [scan]

theorem scan_other {c : Char} (h : c ≠ '\\') : scan names pos (c :: t) = scan names (pos + 1) t := by
  rw [scan.eq_def]
  simp [h]

theorem scan_chars {u : Text} (hu : ∀ c ∈ u, c ≠ '\\') (pos : Nat) (t : Text) :
    scan names pos (u ++ t) = scan names (pos + u.length) t := by
  induction u generalizing pos with
  | nil => simp
  | cons c u ih =>
    simp only [List.forall_mem_cons] at hu
    rw [List.cons_append, scan_other hu.1, ih hu.2, List.length_cons, Nat.add_right_comm, Nat.add_assoc]

theorem scan_symbol {c : Char} (h : c.isAlpha = false) :
    scan names pos ('\\' :: c :: t) = scan names (pos + 2) t := by
  simp [scan, h]

theorem scan_word (h : Word w r) :
    scan names pos ('\\' :: (w ++ r)) =
      match if w ∈ names then afterName? w pos ⟨pos + 1 + w.length, r⟩ else .ok none with
      | .error m => .stop m
      | .ok none => scan names (pos + 1 + w.length) r
      | .ok (some c) => (scan names c.span.stop ((w ++ r).drop (c.span.stop - pos - 1))).cons c := by
  obtain ⟨d, w', rfl⟩ := List.exists_cons_of_ne_nil h.ne_nil
  have hd := h.letters d List.mem_cons_self
  have hw := h.takeWhile
  simp only [List.cons_append] at hw ⊢
  rw [scan]
  simp only [if_true, hd, hw, List.drop_succ_cons, List.length_cons, List.drop_left]
  all_goals rfl

theorem scan_mention (h : Word w r)
    (hn : w ∈ names → afterName? w pos ⟨pos + 1 + w.length, r⟩ = .ok none) :
    scan names pos ('\\' :: (w ++ r)) = scan names (pos + 1 + w.length) r := by
  rw [scan_word h]
  split_ifs with hw
  · rw [hn hw]
  · rfl

theorem scan_stopped (h : Word w r) (hw : w ∈ names) {m : Malformed}
    (hm : afterName? w pos ⟨pos + 1 + w.length, r⟩ = .error m) :
    scan names pos ('\\' :: (w ++ r)) = .stop m := by
  rw [scan_word h, if_pos hw, hm]

theorem scan_command (h : Word w r) (hw : w ∈ names) {c : Command} {k : Nat}
    (hc : afterName? w pos ⟨pos + 1 + w.length, r⟩ = .ok (some c))
    (hk : c.span.stop = pos + 1 + w.length + k) :
    scan names pos ('\\' :: (w ++ r)) = (scan names c.span.stop (r.drop k)).cons c := by
  have rest : (w ++ r).drop (c.span.stop - pos - 1) = r.drop k := by
    rw [show c.span.stop - pos - 1 = w.length + k by omega, List.drop_append,
      List.drop_eq_nil_of_le (by omega), List.nil_append, Nat.add_sub_cancel_left]
  rw [scan_word h, if_pos hw, hc]
  simp [rest]

/-- Past a command, a search goes on behind the brace that closes its argument. -/
theorem scan_argument (h : Word w r) (hw : w ∈ names) {c : Command} {before argument rest : Text}
    (hc : afterName? w pos ⟨pos + 1 + w.length, r⟩ = .ok (some c)) (hr : r = before ++ (argument ++ '}' :: rest))
    (hk : c.span.stop = pos + 1 + w.length + (before.length + (argument.length + 1))) :
    scan names pos ('\\' :: (w ++ r)) = (scan names c.span.stop rest).cons c := by
  rw [scan_command h hw hc hk, hr, ← List.drop_drop, List.drop_left, ← List.drop_drop, List.drop_left,
    List.drop_one, List.tail_cons]

/-- Induction on a text as it is searched for commands. -/
@[elab_as_elim]
theorem scan_induction {motive : Nat → Text → Prop} (names : List Text)
    (nil : ∀ pos, motive pos []) (lone : ∀ pos, motive pos ['\\'])
    (other : ∀ pos c t, c ≠ '\\' → motive (pos + 1) t → motive pos (c :: t))
    (symbol : ∀ pos c t, c.isAlpha = false → motive (pos + 2) t → motive pos ('\\' :: c :: t))
    (mention : ∀ pos w r, Word w r →
      (w ∈ names → afterName? w pos ⟨pos + 1 + w.length, r⟩ = .ok none) →
      motive (pos + 1 + w.length) r → motive pos ('\\' :: (w ++ r)))
    (stopped : ∀ pos w r m, Word w r → w ∈ names →
      afterName? w pos ⟨pos + 1 + w.length, r⟩ = .error m → motive pos ('\\' :: (w ++ r)))
    (command : ∀ pos w r c k, Word w r → w ∈ names →
      afterName? w pos ⟨pos + 1 + w.length, r⟩ = .ok (some c) → c.span.start = pos →
      c.span.stop = pos + 1 + w.length + (k + 1) → r[k]? = some '}' →
      motive c.span.stop (r.drop (k + 1)) → motive pos ('\\' :: (w ++ r)))
    (pos : Nat) (t : Text) : motive pos t := by
  induction n : t.length using Nat.strong_induction_on generalizing pos t with
  | _ n ih =>
    subst n
    match t with
    | [] => exact nil pos
    | c :: t =>
      by_cases hc : c = '\\'
      · subst hc
        match t with
        | [] => exact lone pos
        | d :: t =>
          cases hd : d.isAlpha with
          | false => exact symbol pos d t hd (ih t.length (by grind) _ t rfl)
          | true =>
            obtain ⟨w, r, hw, e⟩ := exists_word hd t
            rw [e] at ih ⊢
            by_cases hn : w ∈ names
            · cases ha : afterName? w pos ⟨pos + 1 + w.length, r⟩ with
              | error m => exact stopped pos w r m hw hn ha
              | ok c? =>
                cases c? with
                | none => exact mention pos w r hw (fun _ => ha) (ih r.length (by grind) _ r rfl)
                | some c =>
                  obtain ⟨-, start, k, stop, close⟩ := span_of_afterName? ha
                  exact command pos w r c k hw hn ha start stop close
                    (ih _ (by simp; omega) _ _ rfl)
            · exact mention pos w r hw (fun h => (hn h).elim) (ih r.length (by grind) _ r rfl)
      · exact other pos c t hc (ih t.length (by simp) _ t rfl)

end Command

end FloatFlattening
