import FloatFlattening.Markup.Arguments
import FloatFlattening.Proofs.Except
import FloatFlattening.Proofs.Markup.Group
import Mathlib.Data.List.TakeWhile
/-!
Arguments inside a longer text. Reading goes on past the end of a text only where blanks, a star,
a bracket group or the command's own name reach that end.
-/

namespace FloatFlattening

namespace Text

/-- A character that may belong to the command before it. -/
def goesOn (c : Char) : Bool := c.isAlpha || c = '*' || isAsciiBlank c || c = '[' || c = '{'

/-- A character after which a command may still go on. -/
def awaits (c : Char) : Bool := c.isAlpha || c = '*' || isAsciiBlank c || c = ']'

theorem getLast?_of_isSuffix {s t : Text} (h : s <:+ t) (hs : s ≠ []) :
    s.getLast? = t.getLast? := by
  obtain ⟨r, rfl⟩ := h
  exact (List.getLast?_append_of_ne_nil r hs).symm

end Text

namespace Cursor

/-- The cursor in a longer text. -/
def extend (c : Cursor) (more : Text) : Cursor := ⟨c.pos, c.rest ++ more⟩

@[simp] theorem pos_extend (c : Cursor) (more : Text) : (c.extend more).pos = c.pos := rfl

@[simp] theorem rest_extend (c : Cursor) (more : Text) : (c.extend more).rest = c.rest ++ more := rfl

@[simp] theorem pos_skip (c : Cursor) (n : Nat) : (c.skip n).pos = c.pos + n := rfl

@[simp] theorem rest_skip (c : Cursor) (n : Nat) : (c.skip n).rest = c.rest.drop n := rfl

@[simp] theorem skip_zero (c : Cursor) : c.skip 0 = c := rfl

@[simp] theorem skip_skip (c : Cursor) (m n : Nat) : (c.skip m).skip n = c.skip (m + n) := by
  simp [skip, Nat.add_assoc]

theorem skip_extend {c : Cursor} {n : Nat} (h : n ≤ c.rest.length) (more : Text) :
    (c.extend more).skip n = (c.skip n).extend more := by
  simp [skip, extend, List.drop_append_of_le_length h]

theorem length_takeWhile_le (c : Cursor) (p : Char → Bool) :
    (c.rest.takeWhile p).length ≤ c.rest.length :=
  (List.takeWhile_prefix p).length_le

theorem rest_skipBlanks (c : Cursor) : c.skipBlanks.rest = c.rest.dropWhile Text.isAsciiBlank := by
  have := List.takeWhile_append_dropWhile (p := Text.isAsciiBlank) (l := c.rest)
  calc
    c.skipBlanks.rest = (c.rest.takeWhile Text.isAsciiBlank ++
        c.rest.dropWhile Text.isAsciiBlank).drop (c.rest.takeWhile Text.isAsciiBlank).length := by
      rw [this, skipBlanks, rest_skip]
    _ = c.rest.dropWhile Text.isAsciiBlank := List.drop_left

theorem skipBlanks_skip (c : Cursor) : ∃ n ≤ c.rest.length, c.skipBlanks = c.skip n :=
  ⟨_, c.length_takeWhile_le _, rfl⟩

theorem awaits_of_skipBlanks {c : Cursor} (h : c.rest ≠ []) (k : c.skipBlanks.rest = []) :
    ∃ x ∈ c.rest.getLast?, Text.awaits x := by
  rw [rest_skipBlanks, List.dropWhile_eq_nil_iff] at k
  refine ⟨_, List.getLast?_eq_some_getLast h, ?_⟩
  simp [Text.awaits, k _ (List.getLast_mem h)]

theorem skipBlanks_extend {c : Cursor} {more : Text}
    (h : c.skipBlanks.rest = [] → ∀ x ∈ more.head?, Text.isAsciiBlank x = false) :
    (c.extend more).skipBlanks = c.skipBlanks.extend more := by
  have key : (c.rest ++ more).takeWhile Text.isAsciiBlank = c.rest.takeWhile Text.isAsciiBlank := by
    rw [List.takeWhile_append]
    split
    next full =>
      have none : more.takeWhile Text.isAsciiBlank = [] := by
        cases more with
        | nil => rfl
        | cons x more =>
          exact List.takeWhile_cons_of_neg (by simp [h (by simp [skipBlanks, full]) x rfl])
      rw [none, List.append_nil, (List.takeWhile_prefix _).eq_of_length full]
    next => rfl
  rw [skipBlanks, rest_extend, key, skip_extend (c.length_takeWhile_le _), skipBlanks]

def skipStar (c : Cursor) : Cursor := if c.rest.head? = some '*' then c.skip 1 else c

end Cursor

namespace Arguments

theorem brackets_of_head?_ne {c : Cursor} (h : c.rest.head? ≠ some '[') (construct : Text) :
    brackets construct c = .ok ([], c) := by
  rw [brackets]
  split
  · simp_all
  · rfl

theorem brackets_unclosed {c : Cursor} {t : Text} (h : c.rest = '[' :: t)
    (ht : bracketLength? 0 t = none) (construct : Text) :
    brackets construct c = .error ⟨construct, c.pos, .openBracket⟩ := by
  rw [brackets]
  split
  · simp_all
  · simp_all

theorem brackets_group {c : Cursor} {t : Text} {n : Nat} (h : c.rest = '[' :: t)
    (ht : bracketLength? 0 t = some n) (construct : Text) :
    brackets construct c = (brackets construct (c.skip (n + 2)).skipBlanks).map
      fun (more, c') => (t.take n :: more, c') := by
  rw [brackets]
  split
  · simp_all
  · simp_all

/-- Induction on a cursor as bracket groups are read from it. -/
@[elab_as_elim]
theorem brackets_induction {motive : Cursor → Prop}
    (unclosed : ∀ c t, c.rest = '[' :: t → bracketLength? 0 t = none → motive c)
    (group : ∀ c t n, c.rest = '[' :: t → bracketLength? 0 t = some n →
      motive (c.skip (n + 2)).skipBlanks → motive c)
    (done : ∀ c, c.rest.head? ≠ some '[' → motive c) (c : Cursor) : motive c := by
  induction c using brackets.induct with
  | case1 c t hc ht => exact unclosed c t hc ht
  | case2 c t hc n ht ih => exact group c t n hc ht ih
  | case3 c hc =>
    apply done
    cases e : c.rest with
    | nil => simp
    | cons x t => rintro ⟨⟩; exact hc t e

/-- Bracket groups leave a later cursor of the same text. -/
theorem brackets_skip {construct : Text} {c c' : Cursor} {groups : List Text}
    (h : brackets construct c = .ok (groups, c')) : ∃ n ≤ c.rest.length, c' = c.skip n := by
  induction c using brackets_induction generalizing groups with
  | unclosed c t hc ht => simp [brackets_unclosed hc ht] at h
  | group c t n hc ht ih =>
    rw [brackets_group hc ht] at h
    obtain ⟨⟨more, c''⟩, h', e⟩ := Except.map_eq_ok_iff.1 h
    obtain ⟨-, rfl⟩ := Prod.mk.inj e
    obtain ⟨k, hk, rfl⟩ := ih h'
    obtain ⟨l, hl, hl'⟩ := (c.skip (n + 2)).skipBlanks_skip
    have := (List.getElem?_eq_some_iff.1 (getElem?_bracketLength? ht)).1
    rw [hl'] at hk ⊢
    refine ⟨n + 2 + l + k, ?_, by simp⟩
    simp [hc] at hk hl ⊢
    omega
  | done c hc =>
    rw [brackets_of_head?_ne hc] at h
    obtain ⟨-, rfl⟩ := Prod.mk.inj (Except.ok.inj h)
    exact ⟨0, by simp, rfl⟩

/-- When bracket groups reach the end of a text, it ends in a blank or a bracket. -/
theorem brackets_reach_end {construct : Text} {c c' : Cursor} {groups : List Text}
    (h : brackets construct c = .ok (groups, c')) (hc : c.rest ≠ []) (hc' : c'.rest = []) :
    ∃ x ∈ c.rest.getLast?, Text.awaits x := by
  induction c using brackets_induction generalizing groups with
  | unclosed c t hr ht => simp [brackets_unclosed hr ht] at h
  | group c t n hr ht ih =>
    rw [brackets_group hr ht] at h
    obtain ⟨⟨more, c''⟩, h', e⟩ := Except.map_eq_ok_iff.1 h
    obtain ⟨-, rfl⟩ := Prod.mk.inj e
    have close : c.rest[n + 1]? = some ']' := by simp [hr, getElem?_bracketLength? ht]
    have suffix : (c.skip (n + 2)).rest <:+ c.rest := List.drop_suffix _ _
    by_cases empty : (c.skip (n + 2)).rest = []
    · have := (List.getElem?_eq_some_iff.1 close).1
      have full : c.rest.length - 1 = n + 1 := by simp at empty; omega
      exact ⟨']', by rw [List.getLast?_eq_getElem?, full, close]; rfl, rfl⟩
    · by_cases blank : (c.skip (n + 2)).skipBlanks.rest = []
      · rw [← Text.getLast?_of_isSuffix suffix empty]
        exact Cursor.awaits_of_skipBlanks empty blank
      · have := (Cursor.rest_skipBlanks _ ▸ List.dropWhile_suffix _).trans suffix
        rw [← Text.getLast?_of_isSuffix this blank]
        exact ih h' blank
  | done c hr =>
    rw [brackets_of_head?_ne hr] at h
    obtain ⟨-, rfl⟩ := Prod.mk.inj (Except.ok.inj h)
    exact absurd hc' hc

theorem brackets_extend {construct : Text} {c c' : Cursor} {groups : List Text} {more : Text}
    (h : brackets construct c = .ok (groups, c'))
    (hm : c'.rest = [] → ∀ x ∈ more.head?, Text.goesOn x = false) :
    brackets construct (c.extend more) = .ok (groups, c'.extend more) := by
  induction c using brackets_induction generalizing groups with
  | unclosed c t hr ht => simp [brackets_unclosed hr ht] at h
  | group c t n hr ht ih =>
    rw [brackets_group hr ht] at h
    obtain ⟨⟨others, c''⟩, h', e⟩ := Except.map_eq_ok_iff.1 h
    obtain ⟨rfl, rfl⟩ := Prod.mk.inj e
    have hn := (List.getElem?_eq_some_iff.1 (getElem?_bracketLength? ht)).1
    have blanks : (c.skip (n + 2)).skipBlanks.rest = [] → c''.rest = [] := by
      intro empty
      obtain ⟨k, -, rfl⟩ := brackets_skip h'
      simp [empty]
    rw [brackets_group (t := t ++ more) (by simp [hr]) (bracketLength?_append ht more),
      Cursor.skip_extend (by simp [hr]; omega), Cursor.skipBlanks_extend, ih h']
    · simp [Except.map, List.take_append_of_le_length hn.le]
    · intro empty x hx
      have := hm (blanks empty) x hx
      simp_all [Text.goesOn]
  | done c hr =>
    rw [brackets_of_head?_ne hr] at h
    obtain ⟨rfl, rfl⟩ := Prod.mk.inj (Except.ok.inj h)
    apply brackets_of_head?_ne
    cases hc : c.rest with
    | nil =>
      intro h
      simpa [Text.goesOn] using hm hc '[' (by simpa [hc] using h)
    | cons x t => simpa [hc] using hr

theorem braces_one_of_head?_ne {c : Cursor} (h : c.skipBlanks.rest.head? ≠ some '{')
    (construct : Text) : braces construct 1 c = .ok none := by
  rw [braces]
  split
  · simp_all
  · rfl

theorem braces_one_unclosed {c : Cursor} {t : Text} (h : c.skipBlanks.rest = '{' :: t)
    (ht : braceLength? 0 t = none) (construct : Text) :
    braces construct 1 c = .error ⟨construct, c.skipBlanks.pos, .openBrace⟩ := by
  simp [braces, h, ht]

theorem braces_one_group {c : Cursor} {t : Text} {n : Nat} (h : c.skipBlanks.rest = '{' :: t)
    (ht : braceLength? 0 t = some n) (construct : Text) :
    braces construct 1 c = .ok (some ([⟨c.skipBlanks.pos + 1, c.skipBlanks.pos + 1 + n⟩],
      c.skipBlanks.pos + (n + 2))) := by
  simp [braces, h, ht, Except.map]

theorem read_eq_error {construct : Text} {c : Cursor} {m : Malformed}
    (h : brackets construct c.skipBlanks = .error m) (count : Nat) :
    read construct count c = .error m := by
  simp [read, h, bind, Except.bind]

theorem read_eq {construct : Text} {c c' : Cursor} {groups : List Text}
    (h : brackets construct c.skipBlanks = .ok (groups, c')) (count : Nat) :
    read construct count c = (braces construct count c').map
      (Option.map fun (mandatory, stop) => ⟨groups, mandatory, stop⟩) := by
  rw [read, h]
  simp only [bind, Except.bind]
  cases braces construct count c' <;> rfl

/-- The place where the one brace group of a command begins: the bracket groups before it, the
cursor at its brace, the text after that and the length of the group. -/
structure Opens (construct : Text) (c : Cursor) (groups : List Text) (c' : Cursor) (t : Text)
    (n : Nat) : Prop where
  brackets : ∃ c₁, brackets construct c.skipBlanks = .ok (groups, c₁) ∧ c₁.skipBlanks = c'
  rest : c'.rest = '{' :: t
  length : braceLength? 0 t = some n

theorem read_one_eq_some_iff {construct : Text} {c : Cursor} {a : Arguments} :
    read construct 1 c = .ok (some a) ↔ ∃ groups c' t n, Opens construct c groups c' t n ∧
      a = ⟨groups, [⟨c'.pos + 1, c'.pos + 1 + n⟩], c'.pos + (n + 2)⟩ := by
  constructor
  · intro h
    cases hb : brackets construct c.skipBlanks with
    | error m => simp [read_eq_error hb] at h
    | ok r =>
      obtain ⟨groups, c₁⟩ := r
      rw [read_eq hb] at h
      by_cases hd : c₁.skipBlanks.rest.head? = some '{'
      · obtain ⟨t, ht⟩ := List.head?_eq_some_iff.1 hd
        cases hn : braceLength? 0 t with
        | none => simp [braces_one_unclosed ht hn, Except.map] at h
        | some n =>
          refine ⟨groups, _, t, n, ⟨⟨c₁, hb, rfl⟩, ht, hn⟩, ?_⟩
          simpa [braces_one_group ht hn, Except.map, eq_comm] using h
      · simp [braces_one_of_head?_ne hd, Except.map] at h
  · rintro ⟨groups, c', t, n, ⟨⟨c₁, hb, rfl⟩, ht, hn⟩, rfl⟩
    rw [read_eq hb, braces_one_group ht hn]
    rfl

theorem read_one_eq_none_iff {construct : Text} {c : Cursor} :
    read construct 1 c = .ok none ↔ ∃ groups c₁, brackets construct c.skipBlanks = .ok (groups, c₁) ∧
      c₁.skipBlanks.rest.head? ≠ some '{' := by
  constructor
  · intro h
    cases hb : brackets construct c.skipBlanks with
    | error m => simp [read_eq_error hb] at h
    | ok r =>
      obtain ⟨groups, c₁⟩ := r
      refine ⟨groups, c₁, rfl, fun hd => ?_⟩
      rw [read_eq hb] at h
      obtain ⟨t, ht⟩ := List.head?_eq_some_iff.1 hd
      cases hn : braceLength? 0 t with
      | none => simp [braces_one_unclosed ht hn, Except.map] at h
      | some n => simp [braces_one_group ht hn, Except.map] at h
  · rintro ⟨groups, c₁, hb, hd⟩
    rw [read_eq hb, braces_one_of_head?_ne hd]
    rfl

theorem Opens.skip {construct : Text} {c c' : Cursor} {groups : List Text} {t : Text} {n : Nat}
    (h : Opens construct c groups c' t n) :
    ∃ k, c' = c.skip k ∧ c.rest.drop k = '{' :: t ∧ k + (n + 2) ≤ c.rest.length := by
  obtain ⟨⟨c₁, hb, rfl⟩, ht, hn⟩ := h
  obtain ⟨i, -, hi⟩ := c.skipBlanks_skip
  obtain ⟨j, -, rfl⟩ := brackets_skip hb
  obtain ⟨k, -, hk⟩ := (c.skipBlanks.skip j).skipBlanks_skip
  rw [hk, hi, Cursor.skip_skip, Cursor.skip_skip] at ht ⊢
  have := congrArg List.length ht
  have := braceLength?_lt hn
  simp only [Cursor.rest_skip, List.length_drop, List.length_cons] at *
  exact ⟨_, rfl, ht, by omega⟩

theorem Opens.extend {construct : Text} {c c' : Cursor} {groups : List Text} {t : Text} {n : Nat}
    (h : Opens construct c groups c' t n) (more : Text) :
    Opens construct (c.extend more) groups (c'.extend more) (t ++ more) n := by
  obtain ⟨⟨c₁, hb, rfl⟩, ht, hn⟩ := h
  have blanks : c₁.rest = [] → False := by
    intro e
    simp [Cursor.rest_skipBlanks, e] at ht
  have start : c.skipBlanks.rest = [] → False := by
    intro e
    obtain ⟨k, -, rfl⟩ := brackets_skip hb
    exact blanks (by simp [e])
  refine ⟨⟨c₁.extend more, ?_, ?_⟩, by simp [ht], braceLength?_append hn more⟩
  · rw [Cursor.skipBlanks_extend fun e => (start e).elim]
    exact brackets_extend hb fun e => (blanks e).elim
  · exact Cursor.skipBlanks_extend fun e => by simp [e] at ht

theorem awaits_of_reach_end {construct : Text} {c c₁ : Cursor} {groups : List Text}
    (h : brackets construct c.skipBlanks = .ok (groups, c₁)) (hc : c.rest ≠ [])
    (h₁ : c₁.skipBlanks.rest = []) : ∃ x ∈ c.rest.getLast?, Text.awaits x := by
  by_cases blank : c.skipBlanks.rest = []
  · exact Cursor.awaits_of_skipBlanks hc blank
  · have suffix : c.skipBlanks.rest <:+ c.rest := List.drop_suffix _ _
    rw [← Text.getLast?_of_isSuffix suffix blank]
    by_cases full : c₁.rest = []
    · exact brackets_reach_end h blank full
    · obtain ⟨k, -, rfl⟩ := brackets_skip h
      rw [← Text.getLast?_of_isSuffix (List.drop_suffix k c.skipBlanks.rest) full]
      exact Cursor.awaits_of_skipBlanks full h₁

/-- A command without its argument at the end of a text gets none from what follows, unless the
text may end within the command and what follows may belong to it. -/
theorem read_one_none_extend {construct : Text} {c : Cursor} {more : Text}
    (h : read construct 1 c = .ok none)
    (hm : (c.rest ≠ [] ∧ ∀ x ∈ c.rest.getLast?, Text.awaits x = false) ∨
      ∀ x ∈ more.head?, Text.goesOn x = false) :
    read construct 1 (c.extend more) = .ok none := by
  obtain ⟨groups, c₁, hb, hd⟩ := read_one_eq_none_iff.1 h
  have apart (e : c₁.skipBlanks.rest = []) : ∀ x ∈ more.head?, Text.goesOn x = false := by
    rcases hm with ⟨hc, last⟩ | first
    · obtain ⟨x, hx, hx'⟩ := awaits_of_reach_end hb hc e
      simp [last x hx] at hx'
    · exact first
  have blank (e : c₁.skipBlanks.rest = []) (x : Char) (hx : x ∈ more.head?) :
      Text.isAsciiBlank x = false := by
    have := apart e x hx
    simp_all [Text.goesOn]
  have done (e : c₁.rest = []) : c₁.skipBlanks.rest = [] := by simp [Cursor.rest_skipBlanks, e]
  refine read_one_eq_none_iff.2 ⟨groups, c₁.extend more, ?_, ?_⟩
  · rw [Cursor.skipBlanks_extend]
    · exact brackets_extend hb fun e => apart (done e)
    · intro e
      obtain ⟨k, -, rfl⟩ := brackets_skip hb
      exact blank (done (by simp [e]))
  · rw [Cursor.skipBlanks_extend blank, Cursor.rest_extend]
    cases e : c₁.skipBlanks.rest with
    | nil =>
      intro hx
      simpa [Text.goesOn] using apart e '{' (by simpa using hx)
    | cons y r => simpa [e] using hd

end Arguments

end FloatFlattening
